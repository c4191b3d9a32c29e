import Mathlib.Data.List.Forall2
import Minni.Daemon.DurableNodeLaw
import Minni.Daemon.GraphCoordinator
import Minni.Daemon.GraphProvenance
import Minni.Foundation.Dict

/-!
# What a commit may retire

A commit ends the learning that its fields name, and learnings of its own agent
behind a document that was looked at again and that a strong forward edge
updates.  It leaves the learning that it inserts as it was inserted unless the
fields name that very learning.  A repair ends nothing.
-/

namespace Minni
namespace Daemon

open Foundation Foundation.Db

/-!
## Rows that end
-/

/-- A learning stays what it is; only how it ends may differ. -/
def SameLearning (row row' : BackingLearning) : Prop :=
  row'.learning_id = row.learning_id ∧ row'.agent_id = row.agent_id ∧
    row'.content = row.content

/-- Only the rows that may end have changed. -/
def EndsOnly (may : BackingLearning -> Prop)
    (before after : List BackingLearning) : Prop :=
  List.Forall₂ (fun row row' => row' = row ∨ (may row ∧ SameLearning row row'))
    before after

section EndsOnly

variable {may : BackingLearning -> Prop} {before after : List BackingLearning}

theorem endsOnly_refl (rows : List BackingLearning) : EndsOnly may rows rows :=
  List.forall₂_same.mpr fun _ _ => Or.inl rfl

theorem EndsOnly.map (h : EndsOnly may before after)
    {f : BackingLearning -> BackingLearning}
    (hsame : forall row, SameLearning row (f row))
    (hmay : forall row, row ∈ before -> row ∈ after ->
      f row = row ∨ may row) :
    EndsOnly may before (after.map f) := by
  unfold EndsOnly at *
  induction h with
  | nil => exact List.Forall₂.nil
  | @cons row row' rows rows' hrow hrows ih =>
      constructor
      · rcases hrow with heq | ⟨hrow, hkept⟩
        · rw [heq]
          have hmem : row ∈ row' :: rows' := by
            rw [heq]
            exact List.mem_cons_self ..
          rcases hmay row (List.mem_cons_self ..) hmem with hf | hf
          · exact Or.inl hf
          · exact Or.inr ⟨hf, hsame row⟩
        · right
          constructor
          · exact hrow
          · have hf := hsame row'
            exact ⟨hf.1.trans hkept.1, hf.2.1.trans hkept.2.1,
              hf.2.2.trans hkept.2.2⟩
      · apply ih
        intro other hbefore hafter
        exact hmay other (List.mem_cons_of_mem _ hbefore)
          (List.mem_cons_of_mem _ hafter)

theorem EndsOnly.keys (h : EndsOnly may before after) :
    after.map BackingLearning.learning_id =
      before.map BackingLearning.learning_id := by
  unfold EndsOnly at h
  induction h with
  | nil => rfl
  | cons hrow _ ih =>
      rw [List.map_cons, List.map_cons, ih]
      rcases hrow with heq | ⟨_, hsame⟩
      · rw [heq]
      · rw [hsame.1]

theorem EndsOnly.mem (h : EndsOnly may before after) {row : BackingLearning}
    (hrow : row ∈ before) (hmay : ¬ may row) :
    row ∈ after := by
  unfold EndsOnly at h
  induction h with
  | nil => cases hrow
  | @cons first first' rows rows' hfirst hrows ih =>
      cases hrow with
      | head =>
          rcases hfirst with heq | ⟨hends, _⟩
          · rw [heq]
            exact List.mem_cons_self ..
          · exact absurd hends hmay
      | tail _ hrow => exact List.mem_cons_of_mem _ (ih hrow)

end EndsOnly

/-!
## What may end

The keys of the tables: a learning that is stored next has a key that no row
and no mapping has.
-/

structure GraphKeys (s : GraphStore) : Prop where
  keyed : (s.nodes.learnings.map BackingLearning.learning_id).Nodup
  known : forall row, row ∈ s.nodes.learnings ->
    row.learning_id < s.nodes.next_learning_id
  linked : forall link, link ∈ s.nodes.learning_documents ->
    link.learning_id < s.nodes.next_learning_id

section May

variable (host : GraphHost) (prep : PrepareEnv)

/-- The document is the one that was read when the learning was prepared. -/
def AsPrepared (s : GraphStore) (doc_id : Nat) : Prop :=
  exists metadata doc content now,
    prep.get_metadata doc_id = some metadata ∧
      s.findDocument doc_id = some doc ∧
      (forall field, field ∈ comparedFields ->
        fieldText (rowMetadata host doc (s.pageTypeOf doc_id)) field =
          fieldText metadata field) ∧
      prep.get_content doc_id = some content ∧
      s.ftsOf doc_id = some now ∧ host.sha256 now = host.sha256 content

/-- The classifier and the database together let this row be retired. -/
def MayRetire (source : EdgeSource) (agent_id : String) (s : GraphStore)
    (row : BackingLearning) : Prop :=
  row.active = true ∧ row.agent_id = agent_id ∧
    exists doc_id,
      NodeMapping.mk row.learning_id doc_id ∈ s.nodes.learning_documents ∧
        AsPrepared host prep s doc_id ∧
        exists confidence, supersedeConfidence <= confidence ∧
          BatchHolds host prep source doc_id EdgeLabel.updates
            EdgeDirection.forward confidence

def MayEnd (source : EdgeSource) (agent_id : String) (fields : LearningFields)
    (s : GraphStore) (row : BackingLearning) : Prop :=
  fields.supersedes = some (row.learning_id : Int) ∨
    MayRetire host prep source agent_id s row

end May

/-!
## The node of the new learning
-/

namespace NodeStore

variable {host : NodeHost} {s : NodeStore} {learning_id : Nat}
  {agent_id content : String} {lexists : Bool}

theorem mem_addMapping {link other : NodeMapping}
    (h : other ∈ (s.addMapping link).learning_documents) :
    other ∈ s.learning_documents ∨ other = link := by
  unfold addMapping at h
  split at h
  · exact Or.inl h
  · rcases List.mem_append.mp h with hold | hnew
    · exact Or.inl hold
    · exact Or.inr (List.mem_singleton.mp hnew)

theorem ensureCanonicalLearningNode_learnings :
    (s.ensureCanonicalLearningNode host learning_id agent_id content
      lexists).learnings = s.learnings := by
  unfold ensureCanonicalLearningNode
  split
  · rfl
  · dsimp only
    split
    · rw [addMapping_learnings]
    · split
      · rfl
      · rw [addMapping_learnings]
        split
        · rfl
        · rfl

theorem find?_updateDocument
    {doc_id other : Nat} {f : NodeDocument -> NodeDocument}
    (hne : other ≠ doc_id) (hid : forall doc, (f doc).doc_id = doc.doc_id) :
    (s.updateDocument doc_id f).documents.find?
        (fun doc => doc.doc_id = other) =
      s.documents.find? (fun doc => doc.doc_id = other) := by
  unfold updateDocument
  dsimp only
  induction s.documents with
  | nil => rfl
  | cons doc rest ih =>
      rw [List.map_cons, List.find?_cons, List.find?_cons, ih]
      by_cases hdoc : doc.doc_id = doc_id
      · rw [if_pos hdoc, hid doc]
        by_cases hother : doc.doc_id = other
        · exact absurd (hother.symm.trans hdoc) hne
        · simp [hother]
      · rw [if_neg hdoc]

theorem find?_insertedDocument
    {documents : List NodeDocument} {doc : NodeDocument} {other : Nat}
    (hne : other ≠ doc.doc_id) :
    (documents ++ [doc]).find? (fun row => row.doc_id = other) =
      documents.find? (fun row => row.doc_id = other) := by
  have hnone : [doc].find? (fun row => row.doc_id = other) = none := by
    rw [List.find?_singleton, if_neg]
    intro h
    exact hne (of_decide_eq_true h).symm
  rw [List.find?_append, hnone, Option.or_none]

end NodeStore

/-- What a new learning's node leaves of everything else. -/
structure NodeFrame (doc_id : Nat) (s w : GraphStore) : Prop where
  learnings : w.nodes.learnings = s.nodes.learnings
  links : forall link, link ∈ w.nodes.learning_documents ->
    link ∈ s.nodes.learning_documents ∨ link.doc_id = doc_id
  document : forall other, other ≠ doc_id ->
    w.findDocument other = s.findDocument other
  pageType : forall other, other ≠ doc_id ->
    w.pageTypeOf other = s.pageTypeOf other
  fts : w.vault_fts = s.vault_fts

theorem lookup_typed
    {types : List (Nat × String)} {doc_id other : Nat} {type : String}
    (hne : other ≠ doc_id) :
    (types ++ [(doc_id, type)]).lookup other = types.lookup other := by
  have hbeq : (other == doc_id) = false := beq_false_of_ne hne
  rw [List.lookup_append]
  simp [List.lookup_cons, List.lookup_nil, hbeq]

theorem nodeFrame_ensureNode
    {host : GraphHost} {learning_id doc_id : Nat} {agent_id content : String}
    {lexists : Bool} {s : GraphStore}
    (h : (s.ensureNode host learning_id agent_id content lexists).1 =
      some doc_id) :
    NodeFrame doc_id s
      (s.ensureNode host learning_id agent_id content lexists).2 := by
  unfold GraphStore.ensureNode at *
  cases hnode : s.canonicalNode learning_id agent_id content with
  | none =>
      rw [hnode] at h
      cases h
  | some found =>
      rw [hnode] at h
      cases h
      dsimp only
      unfold GraphStore.canonicalNode at hnode
      split at hnode
      · cases hnode
      rename_i hkeys
      cases hat : s.nodes.documentAt (DocPath.durable agent_id content) with
      | none =>
          rw [hat] at hnode
          cases hnode
          constructor
          · exact NodeStore.ensureCanonicalLearningNode_learnings
          · intro link hlink
            unfold NodeStore.ensureCanonicalLearningNode at hlink
            rw [if_neg hkeys, hat] at hlink
            rcases NodeStore.mem_addMapping hlink with hold | hnew
            · exact Or.inl hold
            · rw [hnew]
              exact Or.inr rfl
          · intro other hne
            unfold GraphStore.findDocument NodeStore.ensureCanonicalLearningNode
            rw [if_neg hkeys, hat]
            dsimp only
            rw [addMapping_documents]
            exact NodeStore.find?_insertedDocument hne
          · intro other hne
            unfold GraphStore.pageTypeOf GraphStore.typeNewNode
            rw [hat]
            exact lookup_typed hne
          · rfl
      | some doc =>
          rw [hat] at hnode
          dsimp only at hnode
          split at hnode
          · cases hnode
          rename_i hagent
          cases hnode
          constructor
          · exact NodeStore.ensureCanonicalLearningNode_learnings
          · intro link hlink
            unfold NodeStore.ensureCanonicalLearningNode at hlink
            rw [if_neg hkeys, hat] at hlink
            dsimp only at hlink
            rw [if_neg hagent] at hlink
            rcases NodeStore.mem_addMapping hlink with hold | hnew
            · left
              split at hold
              · exact hold
              · exact hold
            · rw [hnew]
              exact Or.inr rfl
          · intro other hne
            unfold GraphStore.findDocument NodeStore.ensureCanonicalLearningNode
            rw [if_neg hkeys, hat]
            dsimp only
            rw [if_neg hagent, addMapping_documents,
              NodeStore.find?_updateDocument hne]
            · split
              · rw [NodeStore.find?_updateDocument hne]
                intro row
                rfl
              · rfl
            · intro row
              rfl
          · intro other hne
            unfold GraphStore.pageTypeOf GraphStore.typeNewNode
            rw [hat]
          · rfl

/-!
## Looking again
-/

section Programs

variable {host : GraphHost} {env : CommitEnv} {s w : GraphStore}

theorem writes_attempt
    {statement : GraphStatement} {Q : Unit -> GraphStore -> Prop}
    (h : Q () w) :
    Writes (attempt env statement) Q s w :=
  writes_mayRaise h

theorem writes_abortUnless
    {ok : Bool} {code : String} {Q : Unit -> GraphStore -> Prop}
    (h : ok = true -> Q () w) :
    Writes (abortUnless ok code) Q s w := by
  cases ok with
  | true => exact writes_pure (h rfl)
  | false => exact writes_raise

theorem targetError_none
    {principal : EffectivePrincipal} {workspace store_id : String}
    {d : CandidateDescriptor} {snapshot : Json}
    (h : targetError host principal workspace store_id d snapshot w = none) :
    exists doc content,
      w.findDocument d.doc_id = some doc ∧
        (forall field, field ∈ comparedFields ->
          fieldText (rowMetadata host doc (w.pageTypeOf d.doc_id)) field =
            fieldText snapshot field) ∧
        w.ftsOf d.doc_id = some content ∧
        host.sha256 content = d.content_sha256 := by
  unfold targetError at h
  split at h
  · cases h
  split at h
  · cases h
  rename_i doc hdoc
  have hid : doc.doc_id = d.doc_id := by
    have hfound := List.find?_some hdoc
    exact of_decide_eq_true hfound
  dsimp only at h
  split at h
  · cases h
  split at h
  · cases h
  split at h
  · cases h
  split at h
  · cases h
  rename_i hfields
  split at h
  · cases h
  split at h
  · cases h
  split at h
  · cases h
  rename_i content hcontent
  split at h
  · cases h
  rename_i hdigest
  rw [hid, Bool.not_eq_true, Bool.not_eq_false', List.all_eq_true] at hfields
  have hsame : forall field, field ∈ comparedFields ->
      fieldText (rowMetadata host doc (w.pageTypeOf d.doc_id)) field =
        fieldText snapshot field := by
    intro field hfield
    exact of_decide_eq_true (hfields field hfield)
  exact ⟨doc, content, hdoc, hsame, hcontent, not_not.mp hdigest⟩

/-- A target that has passed. -/
def PassedTarget (host : GraphHost) (principal : EffectivePrincipal)
    (workspace store_id : String) (snapshots : List (Nat × Json))
    (w : GraphStore) (d : CandidateDescriptor) : Prop :=
  exists snapshot, snapshots.lookup d.doc_id = some snapshot ∧
    targetError host principal workspace store_id d snapshot w = none

theorem writes_revalidateTarget
    {principal : EffectivePrincipal} {workspace store_id : String}
    {snapshots : List (Nat × Json)} {d : CandidateDescriptor} :
    Writes
      (revalidateTarget host env principal workspace store_id snapshots d)
      (fun _ w' => w' = w ∧
        PassedTarget host principal workspace store_id snapshots w d) s w := by
  unfold revalidateTarget
  cases hlookup : snapshots.lookup d.doc_id with
  | none => exact writes_raise
  | some snapshot =>
      dsimp only
      apply writes_bind
      apply writes_attempt
      apply writes_bind
      apply writes_select
      cases herror : targetError host principal workspace store_id d snapshot
          w with
      | some e => exact writes_raise
      | none =>
          apply writes_pure
          constructor
          · rfl
          · exact ⟨snapshot, hlookup, herror⟩

theorem mem_of_mem_targetDescriptors
    {validated : List ValidatedEdge} {d : CandidateDescriptor}
    (h : d ∈ targetDescriptors validated) :
    exists edge, edge ∈ validated ∧ edge.descriptor = d := by
  induction validated with
  | nil => cases h
  | cons first rest ih =>
      rw [targetDescriptors] at h
      split at h
      · rcases ih h with ⟨edge, hedge, hd⟩
        exact ⟨edge, List.mem_cons_of_mem _ hedge, hd⟩
      · cases h with
        | head => exact ⟨first, List.mem_cons_self .., rfl⟩
        | tail _ h =>
            rcases ih h with ⟨edge, hedge, hd⟩
            exact ⟨edge, List.mem_cons_of_mem _ hedge, hd⟩

/-- Every target is looked at again, if not by this edge's descriptor. -/
theorem exists_targetDescriptor
    {validated : List ValidatedEdge} {edge : ValidatedEdge}
    (h : edge ∈ validated) :
    exists d, d ∈ targetDescriptors validated ∧
      d.doc_id = edge.descriptor.doc_id := by
  induction validated with
  | nil => cases h
  | cons first rest ih =>
      rw [targetDescriptors]
      split
      · rename_i hany
        cases h with
        | head =>
            rcases List.any_eq_true.mp hany with ⟨d, hd, hid⟩
            exact ⟨d, hd, of_decide_eq_true hid⟩
        | tail _ h => exact ih h
      · cases h with
        | head => exact ⟨_, List.mem_cons_self .., rfl⟩
        | tail _ h =>
            rcases ih h with ⟨d, hd, hid⟩
            exact ⟨d, List.mem_cons_of_mem _ hd, hid⟩

/-- The documents and texts in the transaction before it looks again, apart
from the document of the learning itself. -/
structure SameTargets (doc_id : Nat) (s w : GraphStore) : Prop where
  document : forall other, other ≠ doc_id ->
    w.findDocument other = s.findDocument other
  pageType : forall other, other ≠ doc_id ->
    w.pageTypeOf other = s.pageTypeOf other
  fts : w.vault_fts = s.vault_fts

theorem asPrepared_of_passed
    {prep : PrepareEnv} {source : EdgeSource} {part : GraphPart}
    {principal : EffectivePrincipal} {workspace store_id : String}
    {doc_id : Nat} {edge : ValidatedEdge}
    (hpart : PartSound host prep source part)
    (hpassed : forall d, d ∈ targetDescriptors part.validated ->
      PassedTarget host principal workspace store_id part.snapshots w d)
    (hsame : SameTargets doc_id s w)
    (hedge : edge ∈ part.validated)
    (hother : edge.descriptor.doc_id ≠ doc_id) :
    AsPrepared host prep s edge.descriptor.doc_id := by
  rcases exists_targetDescriptor hedge with ⟨d, hd, hid⟩
  rw [← hid] at hother ⊢
  rcases hpassed d hd with ⟨snapshot, hlookup, hnone⟩
  rcases targetError_none hnone with ⟨doc, now, hdoc, hfields, hnow, hdigest⟩
  rcases mem_of_mem_targetDescriptors hd with ⟨first, hfirst, heq⟩
  have hdescribed := hpart.described first hfirst
  rw [heq] at hdescribed
  rcases hdescribed.content with ⟨content, hcontent, hread⟩
  rw [hsame.document d.doc_id hother] at hdoc
  rw [hsame.pageType d.doc_id hother] at hfields
  have hfts : s.ftsOf d.doc_id = some now := by
    unfold GraphStore.ftsOf at *
    rw [← hsame.fts]
    exact hnow
  exact ⟨snapshot, doc, content, now, hpart.read _ (Dict.mem_of_lookup hlookup),
    hdoc, hfields, hcontent, hfts, hdigest.trans hread.symm⟩

end Programs

/-!
## Planning and retiring
-/

theorem mem_distinctTargets
    {source_doc_id : Nat} {seen : List Nat} {validated : List ValidatedEdge}
    {edge : ValidatedEdge}
    (h : edge ∈ distinctTargets source_doc_id seen validated) :
    edge ∈ validated ∧ edge.descriptor.doc_id ≠ source_doc_id := by
  induction validated generalizing seen with
  | nil => cases h
  | cons first rest ih =>
      rw [distinctTargets] at h
      split at h
      · have hrest := ih h
        exact ⟨List.mem_cons_of_mem _ hrest.left, hrest.right⟩
      · rename_i hnew
        cases h with
        | head =>
            constructor
            · exact List.mem_cons_self ..
            · intro heq
              exact hnew (Or.inl heq)
        | tail _ h =>
            have hrest := ih h
            exact ⟨List.mem_cons_of_mem _ hrest.left, hrest.right⟩

theorem retire_planMembers
    {agent_id : String} {new_learning_id : Nat}
    {members : List BackingLearning} {learning_id : Nat}
    (h : learning_id ∈
      (planMembers agent_id new_learning_id members).retire) :
    exists row, row ∈ members ∧ row.learning_id = learning_id ∧
      row.agent_id = agent_id ∧ row.active = true := by
  have hretire : learning_id ∈
      ((members.filter fun row => row.agent_id = agent_id).filter
        BackingLearning.active).map (·.learning_id) := by
    unfold planMembers at h
    dsimp only at h
    split at h
    · exact h
    · split at h
      · exact h
      · split at h
        · cases h
        · cases h
        · cases h
  rcases List.mem_map.mp hretire with ⟨row, hrow, hid⟩
  have hactive := List.mem_filter.mp hrow
  have hown := List.mem_filter.mp hactive.left
  exact ⟨row, hown.left, hid, of_decide_eq_true hown.right, hactive.right⟩

/-- What it takes that a plan retires a learning. -/
structure RetireReason (edge : ValidatedEdge) (agent_id : String)
    (learning_id : Nat) (w : GraphStore) : Prop where
  label : edge.label = EdgeLabel.updates
  direction : edge.direction = EdgeDirection.forward
  confidence : supersedeConfidence <= edge.confidence
  member : exists row,
    row ∈ w.nodes.members edge.descriptor.doc_id ∧
      row.learning_id = learning_id ∧ row.agent_id = agent_id ∧
      row.active = true

theorem retireReason_of_plan
    {host : GraphHost} {edge : ValidatedEdge} {agent_id : String}
    {new_learning_id learning_id : Nat} {w : GraphStore}
    (h : learning_id ∈ (planUpdatesAction host edge agent_id new_learning_id
      (supersessionTargetState edge.descriptor.doc_id w)).retire) :
    RetireReason edge agent_id learning_id w := by
  unfold planUpdatesAction at h
  split at h
  · cases h
  rename_i hlabel
  split at h
  · cases h
  dsimp only at h
  split at h
  · cases h
  rename_i hdirection
  split at h
  · cases h
  rename_i state hstate
  split at h
  · cases h
  split at h
  · cases h
  split at h
  · cases h
  rename_i hconfidence
  rcases Option.map_eq_some_iff.mp hstate with ⟨doc, _, heq⟩
  cases heq
  constructor
  · exact not_not.mp hlabel
  · exact not_not.mp hdirection
  · exact Rat.not_lt.mp hconfidence
  · exact retire_planMembers h

theorem restrainPlan_false (plan : UpdatesPlan) :
    (restrainPlan false plan).retire = [] := by
  unfold restrainPlan
  cases hretire : plan.retire with
  | nil => simp [hretire]
  | cons first rest => simp

section Supersession

variable {host : GraphHost} {env : CommitEnv} {s w : GraphStore}
  {I : GraphStore -> Prop}

theorem writes_writeEdges
    {info : ClassifierInfo} {new_learning_id : Nat} {bound : List BoundEdge}
    (hnodes : forall w w', w'.nodes = w.nodes -> I w -> I w') (h : I w) :
    Writes (writeEdges env info new_learning_id bound) (fun _ w' => I w')
      s w := by
  apply writes_forEach _ h
  intro edge _ w' hw'
  apply writes_bind
  apply writes_attempt
  apply writes_bind
  apply writes_execute
  have hlinked : I (w'.upsertLink (linkOf info edge.1)) :=
    hnodes w' _ rfl hw'
  apply writes_whenever
  · intro _
    apply writes_bind
    apply writes_attempt
    apply writes_execute
    exact hnodes (w'.upsertLink (linkOf info edge.1)) _ rfl hlinked
  · intro _
    exact hlinked

theorem queueReview_nodes (review : UpdateReview) :
    (w.queueReview review).nodes = w.nodes := by
  unfold GraphStore.queueReview
  split
  · rfl
  · rfl

theorem writes_queueReview
    {new_learning_id : Nat} {edge : ValidatedEdge} {plan : UpdatesPlan}
    (hnodes : forall w w', w'.nodes = w.nodes -> I w -> I w') (h : I w) :
    Writes
      (match plan.review_reason with
      | none => pure ()
      | some reason => do
          attempt env (GraphStatement.review edge.descriptor.doc_id)
          Db.execute (GraphStore.queueReview
            { target_learning_id := new_learning_id
              superseded_learning_id := plan.review_ref
              confidence := edge.confidence
              detail := reason
              pending := true }))
      (fun _ w' => I w') s w := by
  cases plan.review_reason with
  | none => exact writes_pure h
  | some reason =>
      apply writes_bind
      apply writes_attempt
      apply writes_execute
      exact hnodes _ _ (queueReview_nodes _) h

theorem writes_applyPlan
    {new_learning_id new_doc_id : Nat} {edge : ValidatedEdge}
    {plan : UpdatesPlan}
    (hnodes : forall w w', w'.nodes = w.nodes -> I w -> I w') (h : I w)
    (hretire : plan.retire ≠ [] -> I (w.retireMembers
      edge.descriptor.doc_id plan.retire new_learning_id new_doc_id)) :
    Writes (applyPlan env new_learning_id new_doc_id edge plan)
      (fun _ w' => I w') s w := by
  apply writes_bind
  apply writes_whenever
  · intro hsome
    apply writes_bind
    apply writes_attempt
    apply writes_execute
    apply writes_queueReview hnodes
    apply hretire
    intro hnil
    rw [hnil] at hsome
    cases hsome
  · intro _
    exact writes_queueReview hnodes h

theorem writes_applyUpdatesSupersession
    {validated : List ValidatedEdge} {new_learning_id new_doc_id : Nat}
    {agent_id : String} {allow_retire : Bool}
    (hnodes : forall w w', w'.nodes = w.nodes -> I w -> I w')
    (hretire : allow_retire = true -> forall w edge learning_ids, I w ->
      edge ∈ validated -> edge.descriptor.doc_id ≠ new_doc_id ->
      (forall id, id ∈ learning_ids -> RetireReason edge agent_id id w) ->
      I (w.retireMembers edge.descriptor.doc_id learning_ids new_learning_id
        new_doc_id))
    (h : I w) :
    Writes
      (applyUpdatesSupersession host env validated new_learning_id new_doc_id
        agent_id allow_retire)
      (fun _ w' => I w') s w := by
  apply writes_forEach _ h
  intro edge hedge w' hw'
  have htarget := mem_distinctTargets hedge
  apply writes_bind
  apply writes_attempt
  apply writes_bind
  apply writes_select
  apply writes_applyPlan hnodes hw'
  intro hsome
  cases allow_retire with
  | false => exact absurd (restrainPlan_false _) hsome
  | true =>
      apply hretire rfl w' edge _ hw' htarget.left htarget.right
      intro id hid
      exact retireReason_of_plan hid

end Supersession

namespace NodeStore

variable {s : NodeStore} {doc_id new_learning_id new_doc_id : Nat}
  {learning_ids : List Nat}

theorem retireSupersededMembers_learnings :
    (s.retireSupersededMembers doc_id learning_ids new_learning_id
      new_doc_id).learnings =
      s.learnings.map fun row =>
        if retiresMember learning_ids row then
          { row with
            status := some LearningStatus.superseded
            superseded_by := some (new_learning_id : Int) }
        else row := by
  unfold retireSupersededMembers
  dsimp only
  split
  · rfl
  · rfl

theorem retireSupersededMembers_links :
    (s.retireSupersededMembers doc_id learning_ids new_learning_id
      new_doc_id).learning_documents = s.learning_documents := by
  unfold retireSupersededMembers
  dsimp only
  split
  · rfl
  · rfl

end NodeStore

/-!
## The commit
-/

namespace GraphStore

/-- The store after `_insert_learning`. -/
def recorded (agent_id content : String) (fields : LearningFields)
    (s : GraphStore) : GraphStore :=
  match fields.supersedes with
  | none => (s.insertRow agent_id content fields).2
  | some old =>
      (s.insertRow agent_id content fields).2.supersedeRow old
        s.nodes.next_learning_id

end GraphStore

theorem writes_insertLearning
    {env : CommitEnv} {agent_id content : String} {fields : LearningFields}
    {s w : GraphStore} :
    Writes (insertLearning env agent_id content fields)
      (fun learning_id w' => learning_id = w.nodes.next_learning_id ∧
        w' = w.recorded agent_id content fields) s w := by
  apply writes_bind
  apply writes_abortUnless
  intro _
  apply writes_bind
  apply writes_attempt
  apply writes_bind
  apply writes_insert
  unfold GraphStore.recorded
  cases fields.supersedes with
  | none =>
      apply writes_pure
      exact ⟨rfl, rfl⟩
  | some old =>
      apply writes_bind
      apply writes_attempt
      apply writes_bind
      apply writes_execute
      apply writes_pure
      exact ⟨rfl, rfl⟩

section Commit

variable (host : GraphHost) (prep : PrepareEnv) (source : EdgeSource)
  (agent_id content : String) (fields : LearningFields) (s : GraphStore)

/-- The learnings, the new one included, as the transaction found them. -/
def withInserted : List BackingLearning :=
  s.nodes.learnings ++ [s.insertedRow agent_id content fields]

/-- The fields name the learning that the commit inserts. -/
def NamesItself : Prop :=
  fields.supersedes = some (s.nodes.next_learning_id : Int)

structure Committing (doc_id : Nat) (w : GraphStore) : Prop where
  rows : EndsOnly (MayEnd host prep source agent_id fields s)
    (withInserted agent_id content fields s) w.nodes.learnings
  links : forall link, link ∈ w.nodes.learning_documents ->
    link ∈ s.nodes.learning_documents ∨ link.doc_id = doc_id
  named : NamesItself fields s -> forall row, row ∈ w.nodes.learnings ->
    row.learning_id = s.nodes.next_learning_id -> row.superseded_by ≠ none

end Commit

section Commit

variable {host : GraphHost} {prep : PrepareEnv} {source : EdgeSource}
  {agent_id content : String} {fields : LearningFields} {s w : GraphStore}
  {doc_id : Nat}

theorem recorded_links (agent_id content : String) (fields : LearningFields)
    (s : GraphStore) :
    (s.recorded agent_id content fields).nodes.learning_documents =
      s.nodes.learning_documents := by
  unfold GraphStore.recorded
  split
  · rfl
  · rfl

theorem recorded_rows :
    EndsOnly (MayEnd host prep source agent_id fields s)
      (withInserted agent_id content fields s)
      (s.recorded agent_id content fields).nodes.learnings := by
  unfold GraphStore.recorded
  split
  · exact endsOnly_refl _
  · rename_i old hold
    apply EndsOnly.map (endsOnly_refl _)
    · intro row
      split
      · exact ⟨rfl, rfl, rfl⟩
      · exact ⟨rfl, rfl, rfl⟩
    · intro row _ _
      split
      · rename_i hid
        right
        left
        rw [hold, hid]
      · exact Or.inl rfl

theorem recorded_named (h : NamesItself fields s)
    {row : BackingLearning}
    (hrow : row ∈ (s.recorded agent_id content fields).nodes.learnings)
    (hid : row.learning_id = s.nodes.next_learning_id) :
    row.superseded_by ≠ none := by
  unfold GraphStore.recorded at hrow
  rw [h] at hrow
  rcases List.mem_map.mp hrow with ⟨before, _, heq⟩
  split at heq
  · rw [← heq]
    exact Option.some_ne_none _
  · rename_i hother
    rw [← heq] at hid
    rw [hid] at hother
    exact absurd rfl hother

theorem recorded_same (doc_id : Nat) :
    SameTargets doc_id s (s.recorded agent_id content fields) := by
  unfold GraphStore.recorded
  split
  · exact ⟨fun _ _ => rfl, fun _ _ => rfl, rfl⟩
  · exact ⟨fun _ _ => rfl, fun _ _ => rfl, rfl⟩

theorem committing_ensured
    (h : NodeFrame doc_id (s.recorded agent_id content fields) w) :
    Committing host prep source agent_id content fields s doc_id w := by
  constructor
  · rw [h.learnings]
    exact recorded_rows
  · intro link hlink
    rw [← recorded_links agent_id content fields s]
    exact h.links link hlink
  · intro hnamed row hrow hid
    rw [h.learnings] at hrow
    exact recorded_named hnamed hrow hid

theorem Committing.of_nodes
    (h : Committing host prep source agent_id content fields s doc_id w)
    {w' : GraphStore} (hnodes : w'.nodes = w.nodes) :
    Committing host prep source agent_id content fields s doc_id w' := by
  constructor
  · rw [hnodes]
    exact h.rows
  · rw [hnodes]
    exact h.links
  · rw [hnodes]
    exact h.named

theorem GraphKeys.withInserted_keyed (hkeys : GraphKeys s) :
    ((withInserted agent_id content fields s).map
      BackingLearning.learning_id).Nodup := by
  unfold withInserted
  rw [List.map_append, List.nodup_append]
  constructor
  · exact hkeys.keyed
  · constructor
    · exact List.nodup_singleton _
    · intro id hid other hother heq
      rcases List.mem_map.mp hid with ⟨row, hrow, hrowId⟩
      rw [List.mem_singleton.mp hother] at heq
      have hlt := hkeys.known row hrow
      rw [hrowId, heq] at hlt
      exact Nat.lt_irrefl _ hlt

/-- Retiring behind a target that was looked at again. -/
theorem Committing.retire
    (h : Committing host prep source agent_id content fields s doc_id w)
    (hkeys : GraphKeys s) {edge : ValidatedEdge} {learning_ids : List Nat}
    (hother : edge.descriptor.doc_id ≠ doc_id)
    (hprepared : AsPrepared host prep s edge.descriptor.doc_id)
    (hheld : BatchHolds host prep source edge.descriptor.doc_id edge.label
      edge.direction edge.confidence)
    (hreason : forall id, id ∈ learning_ids ->
      RetireReason edge agent_id id w)
    (new_learning_id new_doc_id : Nat) :
    Committing host prep source agent_id content fields s doc_id
      (w.retireMembers edge.descriptor.doc_id learning_ids new_learning_id
        new_doc_id) := by
  unfold GraphStore.retireMembers
  constructor
  · dsimp only
    rw [NodeStore.retireSupersededMembers_learnings]
    apply h.rows.map
    · intro row
      split
      · exact ⟨rfl, rfl, rfl⟩
      · exact ⟨rfl, rfl, rfl⟩
    · intro row hbefore hafter
      split
      · rename_i hretires
        have hsplit := Bool.and_eq_true_iff.mp hretires
        have hid := List.contains_iff_mem.mp hsplit.left
        have hwhy := hreason _ hid
        rcases hwhy.member with ⟨found, hfound, hsameId, hagent, _⟩
        have hmember := NodeStore.mem_members.mp hfound
        have hkeyed : (w.nodes.learnings.map
            BackingLearning.learning_id).Nodup := by
          rw [h.rows.keys]
          exact hkeys.withInserted_keyed
        have heq : found = row :=
          List.inj_on_of_nodup_map hkeyed hmember.left hafter hsameId
        rw [heq] at hagent hmember
        rw [hwhy.label, hwhy.direction] at hheld
        right
        right
        constructor
        · exact hsplit.right
        · constructor
          · exact hagent
          · rcases h.links _ hmember.right with hold | hown
            · exact ⟨_, hold, hprepared, _, hwhy.confidence, hheld⟩
            · exact absurd hown hother
      · exact Or.inl rfl
  · dsimp only
    rw [NodeStore.retireSupersededMembers_links]
    exact h.links
  · dsimp only
    rw [NodeStore.retireSupersededMembers_learnings]
    intro hnamed row hrow hid
    rcases List.mem_map.mp hrow with ⟨before, hbefore, heq⟩
    split at heq
    · rw [← heq]
      exact Option.some_ne_none _
    · rw [← heq] at hid ⊢
      exact h.named hnamed before hbefore hid

end Commit

/-!
## The transaction
-/

section Transaction

variable {host : GraphHost} {env : CommitEnv} {prep : PrepareEnv}
  {source : EdgeSource} {agent_id content : String} {fields : LearningFields}
  {s w : GraphStore} {doc_id : Nat}

theorem writes_ensureCanonicalNode
    {learning_id : Nat} {agent_id content : String} :
    Writes (ensureCanonicalNode host env learning_id agent_id content)
      (fun node w' => w'.nodes.learnings = w.nodes.learnings ∧
        forall doc_id, node = some doc_id -> NodeFrame doc_id w w') s w := by
  apply writes_bind
  apply writes_attempt
  split
  · apply writes_insert
    constructor
    · unfold GraphStore.ensureNode
      split
      · rfl
      · exact NodeStore.ensureCanonicalLearningNode_learnings
    · intro doc_id hnode
      exact nodeFrame_ensureNode hnode
  · apply writes_pure
    constructor
    · rfl
    · intro doc_id hnode
      cases hnode

theorem SameTargets.trans {r : GraphStore}
    (h : SameTargets doc_id s r) (hframe : NodeFrame doc_id r w) :
    SameTargets doc_id s w := by
  constructor
  · intro other hne
    rw [hframe.document other hne, h.document other hne]
  · intro other hne
    rw [hframe.pageType other hne, h.pageType other hne]
  · rw [hframe.fts, h.fts]

theorem fillProjection_nodes :
    (w.fillProjection doc_id content).nodes = w.nodes := by
  unfold GraphStore.fillProjection
  split
  · rfl
  · rfl

theorem writes_commitEdges
    {body : PreparedBody} {principal : EffectivePrincipal} {learning_id : Nat}
    (hkeys : GraphKeys s)
    (hpart : PartSound host prep source
      { validated := body.validated
        info := body.classifier_info
        snapshots := body.meta_snapshots })
    (hsame : SameTargets doc_id s w)
    (h : Committing host prep source body.principal.agent_id content fields s
      doc_id w) :
    Writes (commitEdges host env body principal learning_id doc_id)
      (fun _ w' => Committing host prep source body.principal.agent_id content
        fields s doc_id w') s w := by
  unfold commitEdges
  have hnodes : forall x x' : GraphStore, x'.nodes = x.nodes ->
      Committing host prep source body.principal.agent_id content fields s
        doc_id x ->
      Committing host prep source body.principal.agent_id content fields s
        doc_id x' :=
    fun _ _ heq hx => hx.of_nodes heq
  cases hgraph : body.graph_enabled with
  | false =>
      apply writes_bind
      apply writes_pure
      apply writes_bind
      apply writes_attempt
      apply writes_bind
      apply writes_execute
      apply writes_pure
      exact h.of_nodes fillProjection_nodes
  | true =>
      apply writes_bind
      apply writes_mono (writes_forEach_checked (P := PassedTarget host
        principal body.workspace body.store_id body.meta_snapshots w)
        (fun _ _ => writes_revalidateTarget))
      intro _ w' hw'
      rw [hw'.left]
      apply writes_bind
      apply writes_attempt
      apply writes_bind
      apply writes_execute
      have hfilled := hnodes w (w.fillProjection doc_id body.content)
        fillProjection_nodes h
      apply writes_bind
      apply writes_mono (writes_writeEdges hnodes hfilled)
      intro _ linked hlinked
      apply writes_applyUpdatesSupersession hnodes _ hlinked
      intro _ x edge learning_ids hx hedge hother hreason
      have hprepared := asPrepared_of_passed hpart hw'.right hsame hedge hother
      exact hx.retire hkeys hother hprepared (hpart.held edge hedge) hreason
        learning_id doc_id

theorem payloadError_none
    {prepared : PreparedLearningCommit} {principal : EffectivePrincipal}
    (h : payloadError host env prepared principal = none) :
    principal.agent_id = prepared.body.principal.agent_id := by
  unfold payloadError at h
  dsimp only at h
  split at h
  · cases h
  split at h
  · cases h
  split at h
  · cases h
  rename_i hagent
  exact not_not.mp hagent

theorem writes_commitPreparedLearning
    {prepared : PreparedLearningCommit} {principal : EffectivePrincipal}
    (hkeys : GraphKeys s)
    (hfields : prepared.body.learning_fields = fields)
    (hpart : PartSound host prep source
      { validated := prepared.body.validated
        info := prepared.body.classifier_info
        snapshots := prepared.body.meta_snapshots }) :
    Writes (commitPreparedLearning host env prepared principal)
      (fun result w' =>
        principal.agent_id = prepared.body.principal.agent_id ∧
          Committing host prep source prepared.body.principal.agent_id
            prepared.body.content fields s result.doc_id w') s s := by
  unfold commitPreparedLearning
  apply writes_bind
  cases hpayload : payloadError host env prepared principal with
  | some e => exact writes_raise
  | none =>
      apply writes_pure
      apply writes_bind
      apply writes_select
      apply writes_bind
      apply writes_abortUnless
      intro _
      apply writes_bind
      apply writes_mono writes_insertLearning
      intro learning_id recorded hrecorded
      rw [hrecorded.right, hfields]
      apply writes_bind
      apply writes_mono writes_ensureCanonicalNode
      intro node w hnode
      cases node with
      | none => exact writes_raise
      | some doc_id =>
          have hframe := hnode.right doc_id rfl
          have hsame := (recorded_same doc_id).trans hframe
          apply writes_bind
          apply writes_mono (writes_commitEdges hkeys hpart hsame
            (committing_ensured hframe))
          intro _ w' hw'
          apply writes_pure
          constructor
          · exact payloadError_none hpayload
          · exact hw'

end Transaction

/-!
## The repair
-/

section Repair

variable {host : GraphHost} {env : CommitEnv} {s w : GraphStore}

theorem plainNode_learnings (agent_id content : String) :
    (w.plainNode host agent_id content).2.nodes.learnings =
      w.nodes.learnings := by
  unfold GraphStore.plainNode
  dsimp only
  split
  · rfl
  · rfl

theorem writes_fillRepaired
    {doc_id : Nat} {content : String} {Q : Unit -> GraphStore -> Prop}
    (h : Q () (w.fillProjection doc_id content)) :
    Writes (fillRepaired env doc_id content) Q s w := by
  apply writes_bind
  apply writes_attempt
  apply writes_execute
  exact h

theorem writes_repairWrites
    {request : RepairRequest} {source : BackingLearning} {part : GraphPart} :
    Writes (repairWrites host env request source part)
      (fun _ w' => w'.nodes.learnings = w.nodes.learnings) s w := by
  unfold repairWrites
  apply writes_bind
  apply writes_select
  apply writes_bind
  apply writes_abortUnless
  intro _
  apply writes_bind
  apply writes_select
  apply writes_bind
  apply writes_abortUnless
  intro _
  apply writes_bind
  apply writes_mono writes_ensureCanonicalNode
  intro node w' hw'
  cases node with
  | none =>
      dsimp only
      apply writes_bind
      apply writes_insert
      apply writes_bind
      apply writes_fillRepaired
      apply writes_pure
      rw [fillProjection_nodes, plainNode_learnings]
      exact hw'.left
  | some doc_id =>
      cases request.principal with
      | none =>
          dsimp only
          apply writes_bind
          apply writes_fillRepaired
          apply writes_pure
          rw [fillProjection_nodes]
          exact hw'.left
      | some principal =>
          dsimp only
          have hnodes : forall x x' : GraphStore, x'.nodes = x.nodes ->
              x.nodes.learnings = w.nodes.learnings ->
              x'.nodes.learnings = w.nodes.learnings := by
            intro x x' heq hx
            rw [heq]
            exact hx
          apply writes_bind
          unfold repairEdges
          apply writes_bind
          apply writes_mono (writes_forEach_checked (fun _ _ =>
            writes_revalidateTarget))
          intro _ checked hchecked
          rw [hchecked.left]
          apply writes_bind
          apply writes_fillRepaired
          apply writes_bind
          apply writes_mono (writes_writeEdges hnodes
            (hnodes w' _ fillProjection_nodes hw'.left))
          intro _ linked hlinked
          apply writes_mono (writes_applyUpdatesSupersession hnodes
            (fun h => absurd h Bool.false_ne_true) hlinked)
          intro _ ended hended
          exact writes_pure hended

end Repair

/-!
## The law
-/

/-- What is left of the learnings when a commit has succeeded. -/
def RetiresOnlyWhatItMay (host : GraphHost) (prep : PrepareEnv)
    (source : EdgeSource) (agent_id content : String) (fields : LearningFields)
    (s s' : GraphStore) : Prop :=
  EndsOnly (MayEnd host prep source agent_id fields s)
    (withInserted agent_id content fields s) s'.nodes.learnings

/-- The learning of the commit is stored as it was inserted. -/
def KeepsInserted (agent_id content : String) (fields : LearningFields)
    (s s' : GraphStore) : Prop :=
  s.insertedRow agent_id content fields ∈ s'.nodes.learnings

theorem Committing.keepsInserted_iff
    {host : GraphHost} {prep : PrepareEnv} {source : EdgeSource}
    {agent_id content : String} {fields : LearningFields}
    {s s' : GraphStore} {doc_id : Nat}
    (h : Committing host prep source agent_id content fields s doc_id s')
    (hkeys : GraphKeys s) :
    KeepsInserted agent_id content fields s s' <-> ¬ NamesItself fields s := by
  constructor
  · intro hkept hnamed
    exact h.named hnamed _ hkept rfl rfl
  · intro hother
    apply h.rows.mem
    · exact List.mem_append_right _ (List.mem_singleton_self _)
    · intro hends
      rcases hends with hnamed | ⟨_, _, doc, hlink, _⟩
      · exact hother hnamed
      · exact Nat.lt_irrefl _ (hkeys.linked _ hlink)

/-- A commit retires only what it may, and its own learning just where the
fields name it; a repair ends no learning; and whatever fails is undone. -/
theorem keepsInserted_iff_notNamed
    {host : GraphHost} {prep : PrepareEnv} {store_id : String}
    {principal : EffectivePrincipal} {workspace content : String}
    {graph_enabled : Bool} {fields : LearningFields}
    {prepared : PreparedLearningCommit} {s : GraphStore}
    (committer : EffectivePrincipal) (env : CommitEnv)
    (request : RepairRequest) (before : GraphStore)
    (hprepared : prepareLearningWithGraph host prep store_id principal
      workspace content graph_enabled fields = Except.ok prepared)
    (hkeys : GraphKeys s) :
    Returns (commitTransaction host env prepared committer)
      (fun r s' =>
        match r with
        | Except.error _ => s' = s
        | Except.ok _ =>
            RetiresOnlyWhatItMay host prep
              (edgeSource host store_id committer.agent_id content)
              committer.agent_id content fields s s' ∧
            (KeepsInserted committer.agent_id content fields s s' <->
              ¬ NamesItself fields s)) s ∧
    Returns (repairLearningProjection host prep env request before)
      (fun r s' =>
        match r with
        | Except.error _ => s' = s
        | Except.ok _ => s'.nodes.learnings = s.nodes.learnings) s := by
  have hfrom := prepareLearningWithGraph_sound host prep hprepared
  constructor
  · apply returns_transaction
    · apply writes_mono (writes_commitPreparedLearning hkeys hfrom.fields_eq
        hfrom.sound)
      intro result s' hs'
      rcases hs' with ⟨hagent, hcommitting⟩
      rw [hfrom.content_eq, ← hagent] at hcommitting
      rw [hfrom.principal_eq] at hagent
      rw [← hagent] at hcommitting
      constructor
      · exact hcommitting.rows
      · exact hcommitting.keepsInserted_iff hkeys
    · intro e
      rfl
  · unfold repairLearningProjection
    split
    · apply returns_raise
      rfl
    · apply returns_transaction
      · exact writes_repairWrites
      · intro e
        rfl

/-!
## Two doors

The first commit takes up an answer that updates what is stored and retires it.
The second one names the key that its own learning gets.
-/

def doorDigest : String -> String
  | "the door is green" =>
      "487605099ac129d461b20cace9ef5c60ccad71be92455f5d8594995543fa48d8"
  | "the door is blue" =>
      "1283e5d35db7fc74de3dd63371c12574859afb069dd1184a87a3aad0d06309d9"
  | _ => "b66791f3eff373f736733612d7310c50cef7ee288029b84bef0a4114135b4f2a"

def doorHost : GraphHost where
  read :=
    { lower := fun text => text
      resolve := fun path => some [path]
      home := fun _ => none }
  node :=
    { durable_metadata := fun _ => ("accepted", "safe")
      fileGone := fun _ => false }
  pageType := fun _ => "learning"
  pathText := fun _ => "/vault/durable/door"
  realpath := fun path => path
  sha256 := doorDigest
  canonicalHash := fun _ => "metadata"
  sourceHash := fun source => source.content_sha256
  candidatesHash := fun candidates =>
    candidates.foldl (fun text d => text ++ d.content_sha256) ""
  outputHash := fun edges =>
    edges.foldl (fun text edge => text ++ edge.pair_id) ""
  evidenceHash := fun parts => parts.foldl (· ++ ·) ""
  payloadDigest := fun body => body.content_sha256
  truncateExcerpt := fun text => text
  renderEdgeInferencePrompt := fun _ candidates =>
    some
      { prompt_text := "source: the door is blue\n1. the door is green"
        pair_ids := candidates.map (·.pair_id)
        line_counts := fun _ => 1
        budget_exceeded := false }

def doorEdge : RawItem where
  keys := expectedItemKeys
  pair_id := some "candidate-doc-1"
  label := some "updates"
  direction := some "forward"
  confidence := RawConfidence.number 1
  supporting_evidence_indices := some [some 1]
  rationale := some "the door has been painted"

def doorAnswer (source : EdgeSource) (candidates : List CandidateDescriptor) :
    ClassifierBatch :=
  let blue := doorHost.sourceHash source
  let green := doorHost.candidatesHash candidates
  { prompt_hash := some (doorDigest "prompt")
    source_hash := some blue
    candidates_hash := some green
    batch_candidates_hash := some green
    output_hash := some "candidate-doc-1"
    evidence_hash := some (doorHost.evidenceHash
      [blue, green, doorDigest "prompt", "candidate-doc-1", "v1", "model"])
    model_id := some "model"
    prompt_version := some "v1"
    classified_pair_ids := ["candidate-doc-1"]
    unclassified_pair_ids := []
    edges := some [doorEdge] }

def doorMetadata : Json :=
  Json.obj
    [("store_id", Json.str "/minni.db"),
      ("doc_id", Json.num (JsonNumber.int 1)), ("agent", Json.str "codex"),
      ("privacy_level", Json.str "safe"),
      ("page_status", Json.str "accepted"),
      ("page_type", Json.str "learning"),
      ("memory_kind", Json.str "learning"),
      ("path", Json.str "/vault/durable/door"),
      ("content_sha256", Json.str (doorDigest "the door is green"))]

def doorPrep : PrepareEnv where
  database := "/minni.db"
  inTransaction := false
  chunked := true
  embedded := true
  graph_ready := true
  search := some [1]
  get_metadata := fun _ => some doorMetadata
  get_content := fun _ => some "the door is green"
  classify := fun source candidates => some (doorAnswer source candidates)

def doorEnv : CommitEnv where
  database := "/minni.db"
  node_schema := true
  lexists := false
  fails := fun _ => none

def doorAgent : EffectivePrincipal where
  agent_id := "codex"
  workspace_id := "default"
  capabilities := ["learn"]
  allowed_vault_roots := []
  auto_accept_own := true

def doorFields (supersedes : Option Int) : LearningFields where
  supersedes := supersedes
  status := none
  finite_confidence := true

def noMemories : GraphStore where
  nodes := NodeStore.empty
  page_type := []
  vault_fts := []
  memory_links := []
  contradiction_log := []
  consolidation_actions := []

def greenDoor : GraphStore where
  nodes :=
    { learnings :=
        [{ learning_id := 1
           agent_id := "codex"
           content := "the door is green"
           status := some LearningStatus.active
           superseded_by := none }]
      documents :=
        [{ doc_id := 1
           path := DocPath.durable "codex" "the door is green"
           agent := "codex"
           page_status := some "accepted"
           privacy_level := some "safe"
           superseded_by := none
           memory_kind := some "learning" }]
      learning_documents := [{ learning_id := 1, doc_id := 1 }]
      next_learning_id := 2
      next_doc_id := 2 }
  page_type := [(1, "learning")]
  vault_fts := [(1, "the door is green")]
  memory_links := []
  contradiction_log := []
  consolidation_actions := []

theorem graphKeys_greenDoor : GraphKeys greenDoor where
  keyed := by decide
  known := by decide
  linked := by decide

def prepareDoor (graph_enabled : Bool) (supersedes : Option Int) :
    Except String PreparedLearningCommit :=
  prepareLearningWithGraph doorHost doorPrep "/minni.db" doorAgent "default"
    "the door is blue" graph_enabled (doorFields supersedes)

/-- The successors of the learnings after a commit of the second learning. -/
def successorsAfter (graph_enabled : Bool) (supersedes : Option Int)
    (s : GraphStore) : Option (List (Option Int)) :=
  match prepareDoor graph_enabled supersedes with
  | Except.error _ => none
  | Except.ok prepared =>
      match commitTransaction doorHost doorEnv prepared doorAgent
          (Connection.idle s) with
      | (Except.error _, _) => none
      | (Except.ok _, c) =>
          some (c.committed.nodes.learnings.map (·.superseded_by))

def doorRepair : RepairRequest where
  store_id := "/minni.db"
  learning_id := 1
  workspace := "default"
  graph_enabled := true
  principal := some doorAgent

theorem keepsInserted_iff_notNamed_greenDoor :
    successorsAfter true none greenDoor = some [some 2, none] ∧
      exists prepared, prepareDoor true none = Except.ok prepared ∧
        Returns (commitTransaction doorHost doorEnv prepared doorAgent)
          (fun r s' =>
            match r with
            | Except.error _ => s' = greenDoor
            | Except.ok _ => KeepsInserted "codex" "the door is blue"
                (doorFields none) greenDoor s') greenDoor := by
  have hrun : successorsAfter true none greenDoor = some [some 2, none] := by
    decide +kernel
  cases hprepared : prepareDoor true none with
  | error e =>
      unfold successorsAfter at hrun
      rw [hprepared] at hrun
      cases hrun
  | ok prepared =>
      have hlaw := (keepsInserted_iff_notNamed doorAgent doorEnv doorRepair
        greenDoor hprepared graphKeys_greenDoor).left
      constructor
      · exact hrun
      · apply Exists.intro prepared
        constructor
        · rfl
        · apply returns_mono hlaw
          intro r s' hr
          cases r with
          | error e => exact hr
          | ok result =>
              apply hr.right.mpr
              intro hnamed
              cases hnamed

theorem superseded_by_itself :
    exists prepared,
      prepareDoor false (some 1) = Except.ok prepared ∧
        exists result s',
          commitTransaction doorHost doorEnv prepared doorAgent
              (Connection.idle noMemories) =
            (Except.ok result, Connection.idle s') ∧
          s'.nodes.learnings =
            [{ noMemories.insertedRow "codex" "the door is blue"
                (doorFields (some 1)) with superseded_by := some 1 }] := by
  apply Exists.intro
  constructor
  · rfl
  · apply Exists.intro
    apply Exists.intro
    constructor
    · rfl
    · decide +kernel

end Daemon
end Minni
