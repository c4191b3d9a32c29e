import Minni.Daemon.GraphPrepare

/-!
# What a prepared learning rests on

Every edge in a payload stands in a batch that the validator has taken, under
the pair of the document it names, and every document was read: its metadata
and its content are the answers that the preparation got.
-/

namespace Minni
namespace Daemon

open Foundation

section Provenance

variable (host : GraphHost) (prep : PrepareEnv)

/-- A candidate whose document was read, with the digest of its content. -/
structure Described (d : CandidateDescriptor) : Prop where
  pair : d.pair_id = pairId d.doc_id
  content : exists content, prep.get_content d.doc_id = some content ∧
    host.sha256 content = d.content_sha256

/-- What the classifier has answered for candidates that were read, once the
validator has taken it. -/
def ValidatedBatch (source : EdgeSource) (edges : List InferredEdge) : Prop :=
  exists candidates render batch items,
    (forall d, d ∈ candidates -> Described host prep d) ∧
      host.renderEdgeInferencePrompt source candidates = some render ∧
      prep.classify source candidates = some batch ∧
      batch.edges = some items ∧
      validateEdgeInferenceResponse items render.pair_ids
        render.line_counts = Except.ok edges

/-- A validated batch has this edge for the pair of this document. -/
def BatchHolds (source : EdgeSource) (doc_id : Nat) (label : EdgeLabel)
    (direction : EdgeDirection) (confidence : Rat) : Prop :=
  exists edges, ValidatedBatch host prep source edges ∧
    exists edge, edge ∈ edges ∧ edge.pair_id = pairId doc_id ∧
      edge.label = label ∧ edge.direction = direction ∧
      edge.confidence = confidence

/-- Where the graph part of a payload comes from. -/
structure PartSound (source : EdgeSource) (part : GraphPart) : Prop where
  described : forall edge, edge ∈ part.validated ->
    Described host prep edge.descriptor
  held : forall edge, edge ∈ part.validated ->
    BatchHolds host prep source edge.descriptor.doc_id edge.label
      edge.direction edge.confidence
  read : forall entry, entry ∈ part.snapshots ->
    prep.get_metadata entry.1 = some entry.2

/-!
## Reading candidates
-/

theorem get_metadata_of_capture
    {prep : PrepareEnv} {store_id : String} {doc_id : Nat} {metadata : Json}
    (h : captureTargetMetadata prep store_id doc_id = some metadata) :
    prep.get_metadata doc_id = some metadata := by
  unfold captureTargetMetadata at h
  exact (Option.filter_eq_some_iff.mp h).left

theorem shortlistDocs_read
    {store_id : String} {principal : EffectivePrincipal} {workspace : String}
    {ranked : List Nat} {room : Nat} {list : Shortlist}
    (h : shortlistDocs host prep store_id principal workspace room ranked =
      Except.ok list) :
    (forall entry, entry ∈ list.shortlisted ->
        prep.get_metadata entry.1 = some entry.2) ∧
      forall entry, entry ∈ list.snapshots ->
        prep.get_metadata entry.1 = some entry.2 := by
  induction ranked generalizing room list with
  | nil =>
      cases room with
      | zero =>
          cases h
          constructor <;> intro entry hentry <;> cases hentry
      | succ room =>
          cases h
          constructor <;> intro entry hentry <;> cases hentry
  | cons doc_id rest ih =>
      cases room with
      | zero =>
          cases h
          constructor <;> intro entry hentry <;> cases hentry
      | succ room =>
          rw [shortlistDocs] at h
          cases hread : captureTargetMetadata prep store_id doc_id with
          | none =>
              rw [hread] at h
              exact ih h
          | some metadata =>
              have hget := get_metadata_of_capture hread
              rw [hread] at h
              dsimp only at h
              split at h
              · split at h
                · split at h
                  · cases h
                  · rename_i more hmore
                    cases h
                    have hrest := ih hmore
                    constructor
                    · intro entry hentry
                      cases hentry with
                      | head => exact hget
                      | tail _ hentry => exact hrest.left entry hentry
                    · intro entry hentry
                      cases hentry with
                      | head => exact hget
                      | tail _ hentry => exact hrest.right entry hentry
                · cases h
              · split at h
                · cases h
                · rename_i more hmore
                  cases h
                  have hrest := ih hmore
                  constructor
                  · exact hrest.left
                  · intro entry hentry
                    cases hentry with
                    | head => exact hget
                    | tail _ hentry => exact hrest.right entry hentry

theorem preparePairs_described
    {store_id : String} {shortlisted : List (Nat × Json)} {room : Nat}
    {list : PairList}
    (h : preparePairs host prep store_id room shortlisted = Except.ok list) :
    forall d, d ∈ list.pairs -> Described host prep d := by
  induction shortlisted generalizing room list with
  | nil =>
      cases room with
      | zero =>
          cases h
          intro d hd
          cases hd
      | succ room =>
          cases h
          intro d hd
          cases hd
  | cons entry rest ih =>
      rcases entry with ⟨doc_id, metadata⟩
      cases room with
      | zero =>
          cases h
          intro d hd
          cases hd
      | succ room =>
          rw [preparePairs] at h
          cases hread : prep.get_content doc_id with
          | none =>
              rw [hread] at h
              dsimp only at h
              split at h
              · cases h
              · rename_i more hmore
                cases h
                intro d hd
                exact ih hmore d hd
          | some content =>
              rw [hread] at h
              dsimp only at h
              split at h
              · rename_i hdigest
                split at h
                · split at h
                  · cases h
                  · rename_i more hmore
                    cases h
                    intro d hd
                    exact ih hmore d hd
                · split at h
                  · cases h
                  · rename_i more hmore
                    cases h
                    intro d hd
                    cases hd with
                    | head => exact ⟨rfl, content, hread, hdigest⟩
                    | tail _ hd => exact ih hmore d hd
              · cases h

/-!
## Keeping edges
-/

theorem mem_keepEdges
    {candidates : List CandidateDescriptor} {edges : List InferredEdge}
    {kept : ValidatedEdge} (h : kept ∈ keepEdges candidates edges) :
    kept.descriptor ∈ candidates ∧
      exists edge, edge ∈ edges ∧ edge.pair_id = kept.descriptor.pair_id ∧
        edge.label = kept.label ∧ edge.direction = kept.direction ∧
        edge.confidence = kept.confidence := by
  unfold keepEdges at h
  rcases List.mem_filterMap.mp h with ⟨edge, hedge, hkept⟩
  split at hkept
  · cases hkept
  · split at hkept
    · cases hkept
    · rcases Option.map_eq_some_iff.mp hkept with ⟨d, hfind, hd⟩
      cases hd
      have hpair := List.find?_some hfind
      constructor
      · exact List.mem_of_find?_eq_some hfind
      · exact ⟨edge, hedge, (of_decide_eq_true hpair).symm, rfl, rfl, rfl⟩

theorem classifyValidated_held
    {source : EdgeSource} {candidates : List CandidateDescriptor}
    {validated : List ValidatedEdge} {info : ClassifierInfo}
    (hcandidates : forall d, d ∈ candidates -> Described host prep d)
    (h : classifyValidated host source candidates prep.classify =
      Except.ok (validated, info)) :
    forall edge, edge ∈ validated ->
      Described host prep edge.descriptor ∧
        BatchHolds host prep source edge.descriptor.doc_id edge.label
          edge.direction edge.confidence := by
  unfold classifyValidated at h
  split at h
  · cases h
  rename_i render hrender
  split at h
  · cases h
  split at h
  · cases h
  split at h
  · cases h
  rename_i batch hbatch
  split at h
  · cases h
  split at h
  · cases h
  rename_i items hitems
  split at h
  · cases h
  rename_i edges hedges
  split at h
  · cases h
  split at h
  · dsimp only at h
    split at h
    · cases h
      intro kept hkept
      rcases mem_keepEdges hkept with
        ⟨hmem, edge, hedge, hpair, hlabel, hdirection, hconfidence⟩
      have hdescribed := hcandidates kept.descriptor hmem
      constructor
      · exact hdescribed
      · exact ⟨edges,
          ⟨candidates, render, batch, items, hcandidates, hrender, hbatch,
            hitems, hedges⟩,
          edge, hedge, hpair.trans hdescribed.pair, hlabel, hdirection,
          hconfidence⟩
    · cases h
  · cases h

/-!
## The payload
-/

theorem prepareGraph_sound
    {store_id : String} {principal : EffectivePrincipal}
    {workspace agent_id content : String} {part : GraphPart}
    (h : prepareGraph host prep store_id principal workspace agent_id content =
      Except.ok part) :
    PartSound host prep (edgeSource host store_id agent_id content) part := by
  unfold prepareGraph at h
  split at h
  · cases h
  split at h
  · cases h
  rename_i shortlist hshortlist
  have hread := shortlistDocs_read host prep hshortlist
  split at h
  · cases h
  rename_i pairs hpairs
  have hdescribed := preparePairs_described host prep hpairs
  split at h
  · cases h
  split at h
  · cases h
    constructor
    · intro edge hedge
      cases hedge
    · intro edge hedge
      cases hedge
    · exact hread.right
  · split at h
    · cases h
    · rename_i validated info hclassified
      cases h
      have hheld := classifyValidated_held host prep hdescribed hclassified
      constructor
      · intro edge hedge
        exact (hheld edge hedge).left
      · intro edge hedge
        exact (hheld edge hedge).right
      · exact hread.right

/-- A payload keeps what it was prepared for. -/
structure PreparedFrom (store_id : String) (principal : EffectivePrincipal)
    (content : String) (fields : LearningFields)
    (prepared : PreparedLearningCommit) : Prop where
  principal_eq : prepared.body.principal = principal
  content_eq : prepared.body.content = content
  fields_eq : prepared.body.learning_fields = fields
  sound : PartSound host prep
    (edgeSource host store_id principal.agent_id content)
    { validated := prepared.body.validated
      info := prepared.body.classifier_info
      snapshots := prepared.body.meta_snapshots }

theorem partSound_none (source : EdgeSource) (info : ClassifierInfo) :
    PartSound host prep source
      { validated := [], info := info, snapshots := [] } := by
  constructor
  · intro edge hedge
    cases hedge
  · intro edge hedge
    cases hedge
  · intro entry hentry
    cases hentry

theorem prepareLearningWithGraph_sound
    {store_id : String} {principal : EffectivePrincipal}
    {workspace content : String} {graph_enabled : Bool}
    {fields : LearningFields} {prepared : PreparedLearningCommit}
    (h : prepareLearningWithGraph host prep store_id principal workspace
      content graph_enabled fields = Except.ok prepared) :
    PreparedFrom host prep store_id principal content fields prepared := by
  unfold prepareLearningWithGraph at h
  split at h
  · cases h
  split at h
  · cases h
  split at h
  · cases h
  split at h
  · cases h
  split at h
  · cases h
  split at h
  · cases h
  dsimp only at h
  split at h
  · cases h
    exact ⟨rfl, rfl, rfl, partSound_none host prep _ _⟩
  split at h
  · cases h
  split at h
  · cases h
  rename_i part hpart
  cases h
  exact ⟨rfl, rfl, rfl, prepareGraph_sound host prep hpart⟩

end Provenance

end Daemon
end Minni
