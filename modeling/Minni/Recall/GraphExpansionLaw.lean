import Minni.Recall.GraphExpansion

/-!
# What the expansion shows, and what it cannot show

Every neighbour is reached from an authorized seed by active links, through
nodes that are open and that the principal may read, and has the score that
these links give.  Documents that the principal may not read, and documents
outside the seeds that are no open learnings, may come and go with their links:
the answer stays the same.
-/

namespace Minni
namespace Recall
namespace Expansion

open Foundation

/-!
## Rows
-/

section Rows

variable {R : Type} {db : GraphStore R} {doc_id : Int}
variable {direction : Direction} {link_types : List String}

theorem find_spec {row : DocumentRow} (h : db.find doc_id = some row) :
    row ∈ db.documents ∧ row.doc_id = doc_id := by
  constructor
  · exact List.mem_of_find?_eq_some h
  · have hid := List.find?_some h
    exact of_decide_eq_true hid

/-- What a row of an edge page is made of. -/
structure IsEdge (db : GraphStore R) (doc_id : Int) (direction : Direction)
    (link_types : List String) (row : EdgeRow R) : Prop where
  link : row.link ∈ db.links
  seed : direction.seedCol row.link = doc_id
  active : row.link.edge_status = "active"
  link_type : row.link.link_type ∈ link_types
  found : db.find (direction.neighborCol row.link) = some row.document
  eligible : sqlEligible row.document = true
  direction_eq : row.direction = direction

theorem isEdge_of_mem {row : EdgeRow R}
    (h : row ∈ edgeRows db doc_id direction link_types) :
    IsEdge db doc_id direction link_types row := by
  rcases List.mem_filterMap.mp h with ⟨link, hlink, hrow⟩
  split at hrow
  · rename_i hwhere
    split at hrow
    · cases hrow
    · rename_i document hfound
      split at hrow
      · rename_i heligible
        cases hrow
        exact
          { link := hlink
            seed := hwhere.1
            active := hwhere.2.1
            link_type := hwhere.2.2.1
            found := hfound
            eligible := heligible
            direction_eq := rfl }
      · cases hrow
  · cases hrow

theorem IsEdge.document_id {row : EdgeRow R}
    (h : IsEdge db doc_id direction link_types row) :
    row.document.doc_id = direction.neighborCol row.link :=
  (find_spec h.found).2

/-- The rows of a walk have different keys. -/
theorem edgeRows_distinct :
    Paging.Distinct EdgeRow.key
      (edgeRows db doc_id direction link_types) := by
  unfold Paging.Distinct edgeRows
  rw [List.pairwise_filterMap]
  apply db.links_key.imp_of_mem
  intro a b ha hb hne row hrow other hother hkey
  have hrowEdge : IsEdge db doc_id direction link_types row :=
    isEdge_of_mem (List.mem_filterMap.mpr ⟨a, ha, hrow⟩)
  have hotherEdge : IsEdge db doc_id direction link_types other :=
    isEdge_of_mem (List.mem_filterMap.mpr ⟨b, hb, hother⟩)
  have hrowLink : row.link = a := by
    split at hrow
    · split at hrow
      · cases hrow
      · split at hrow
        · cases hrow
          rfl
        · cases hrow
    · cases hrow
  have hotherLink : other.link = b := by
    split at hother
    · split at hother
      · cases hother
      · split at hother
        · cases hother
          rfl
        · cases hother
    · cases hother
  have hpair := Prod.ext_iff.mp (toLex_inj.mp hkey)
  have hids : row.document.doc_id = other.document.doc_id := hpair.1
  have htypes : row.link.link_type = other.link.link_type := hpair.2
  rw [hrowEdge.document_id, hotherEdge.document_id] at hids
  have hseeds := hrowEdge.seed.trans hotherEdge.seed.symm
  rw [hrowLink, hotherLink] at hids htypes hseeds
  apply hne
  cases direction with
  | outgoing =>
      exact Prod.ext hseeds (Prod.ext hids htypes)
  | incoming =>
      exact Prod.ext hids (Prod.ext hseeds htypes)

end Rows

/-!
## Candidates
-/

section Candidates

variable {R : Type} (db : GraphStore R) (link_types : List String)
variable (doc_id : Int) (direction : Direction)

/-- All the rows that the pages go through, in their order. -/
def rowsInOrder : List (EdgeRow R) :=
  Paging.inOrder EdgeRow.key
    ((edgeRows db doc_id direction link_types).filter fun row =>
      decide (toLex (0, "") < row.key))

theorem isEdge_of_rowsInOrder {row : EdgeRow R}
    (h : row ∈ rowsInOrder db link_types doc_id direction) :
    IsEdge db doc_id direction link_types row := by
  have hin := (Paging.mem_inOrder EdgeRow.key).mp h
  exact isEdge_of_mem (List.mem_filter.mp hin).1

variable (consider : EdgeRow R -> Option (Neighbor R))

def candidates : List (Neighbor R) :=
  (rowsInOrder db link_types doc_id .outgoing).filterMap consider ++
    (rowsInOrder db link_types doc_id .incoming).filterMap consider

variable (wins : Neighbor R -> Neighbor R -> Bool)

theorem foldl_offer (rows : List (EdgeRow R)) (best : Best R) :
    rows.foldl (offer consider wins) best =
      (rows.filterMap consider).foldl (keep wins) best := by
  induction rows generalizing best with
  | nil => rfl
  | cons row rows ih =>
      rw [List.foldl_cons, ih, List.filterMap_cons]
      unfold offer
      cases consider row with
      | none => rfl
      | some candidate => rfl

theorem walkEdges_eq (best : Best R) :
    walkEdges db link_types doc_id direction consider wins best =
      ((rowsInOrder db link_types doc_id direction).filterMap consider).foldl
        (keep wins) best := by
  have hfuel : ((edgeRows db doc_id direction link_types).filter fun row =>
      decide (toLex (0, "") < row.key)).length < db.links.length + 1 := by
    have hfew := List.length_filter_le
      (fun row : EdgeRow R => decide (toLex (0, "") < row.key))
      (edgeRows db doc_id direction link_types)
    have hrows : (edgeRows db doc_id direction link_types).length ≤
        db.links.length := List.length_filterMap_le _ _
    exact Nat.lt_succ_of_le (le_trans hfew hrows)
  unfold walkEdges fetchEdgePage
  rw [Paging.walk_eq_foldl edgeRows_distinct (by decide) _ best hfuel]
  exact foldl_offer consider wins _ best

/-- The entries are the best of the candidates of both directions. -/
theorem walkBoth_eq :
    walkBoth db link_types doc_id consider wins =
      (candidates db link_types doc_id consider).foldl (keep wins) [] := by
  unfold walkBoth candidates
  rw [walkEdges_eq, walkEdges_eq, List.foldl_append]

end Candidates

/-!
## Entries
-/

section Entries

variable {R : Type} {P : Neighbor R -> Prop}
variable {wins : Neighbor R -> Neighbor R -> Bool}

/-- The entries are under their own documents, one for each. -/
structure Kept (P : Neighbor R -> Prop) (best : Best R) : Prop where
  nodup : (best.map (·.1)).Nodup
  entries : forall entry, entry ∈ best ->
    entry.1 = entry.2.doc_id ∧ P entry.2

theorem kept_nil : Kept P [] where
  nodup := List.nodup_nil
  entries := fun _ h => nomatch h

theorem kept_set {best : Best R} (h : Kept P best) {item : Neighbor R}
    (hitem : P item) : Kept P (Dict.set item.doc_id item best) where
  nodup := Dict.nodup_keys_set h.nodup
  entries := by
    intro entry hentry
    rcases Dict.mem_of_mem_set hentry with rfl | hold
    · exact ⟨rfl, hitem⟩
    · exact h.entries entry hold

theorem kept_keep {best : Best R} (h : Kept P best) {item : Neighbor R}
    (hitem : P item) : Kept P (keep wins best item) := by
  unfold keep
  split
  · exact kept_set h hitem
  · split
    · exact kept_set h hitem
    · exact h

theorem kept_foldl {items : List (Neighbor R)} {best : Best R}
    (h : Kept P best) (hitems : forall item, item ∈ items -> P item) :
    Kept P (items.foldl (keep wins) best) := by
  induction items generalizing best with
  | nil => exact h
  | cons item items ih =>
      exact ih (kept_keep h (hitems item List.mem_cons_self))
        (fun other hother => hitems other (List.mem_cons_of_mem item hother))

theorem of_mem_ranked [LinearOrder R] {best : Best R} (h : Kept P best) {item : Neighbor R}
    (hitem : item ∈ ranked best) : P item := by
  have hin := (List.mergeSort_perm _ _).mem_iff.mp hitem
  rcases List.mem_map.mp hin with ⟨entry, hentry, rfl⟩
  exact (h.entries entry hentry).2

end Entries

/-!
## Paths
-/

section Paths

variable {R : Type} [LinearOrder R] [Mul R] (float : FloatHost R)
variable (asker : Asker) (db : GraphStore R) (seed_ids : List Int)

/-- The hop is an active link that leaves the node, with its own weight and
confidence. -/
structure Linked (node : Int) (hop : Hop R) : Prop where
  from_doc_id : hop.from_doc_id = node
  store_id : hop.store_id = asker.store_id
  link : exists link, link ∈ db.links ∧ link.edge_status = "active" ∧
    hop.direction.seedCol link = node ∧
    hop.direction.neighborCol link = hop.to_doc_id ∧
    link.link_type = hop.link_type ∧
    legacyOrWeight float link.weight = some hop.weight ∧
    legacyOrUnit float link.confidence = some hop.confidence ∧
    link.inference_run_id = hop.inference_run_id ∧
    link.model_id = hop.model_id ∧
    link.inference_method = hop.inference_method

/-- A node that the walk may show or go through. -/
structure OpenNode (metadata : Metadata) : Prop where
  found : exists row, db.find metadata.doc_id = some row ∧
    metadata = documentMetadata row asker.store_id ∧ sqlEligible row = true
  authorized : asker.authorized metadata = true
  eligible : asker.neighborEligible metadata = true
  no_seed : metadata.doc_id ∉ seed_ids

/-- The score that one more link gives. -/
def stepScore (score : R) (hop : Hop R) : R :=
  score * factorOf float hop.link_type * hop.weight * hop.confidence

/-- The paths from a seed, with their scores and depths. -/
inductive Reaches (seed : Int × R) :
    Metadata -> List (Hop R) -> R -> Nat -> Prop where
  | direct {node : Metadata} {hop : Hop R}
      (hlink : Linked float asker db seed.1 hop)
      (hnode : OpenNode asker db seed_ids node)
      (hto : hop.to_doc_id = node.doc_id)
      (htype : hop.link_type ∈ allowedLinkTypes) :
      Reaches seed node [hop] (stepScore float seed.2 hop) 1
  | far {middle node : Metadata} {path : List (Hop R)} {score : R}
      {hop : Hop R}
      (hmiddle : Reaches seed middle path score 1)
      (hcarries : forall first, first ∈ path ->
        first.link_type ∈ twoHopTypes)
      (hlink : Linked float asker db middle.doc_id hop)
      (hnode : OpenNode asker db seed_ids node)
      (hto : hop.to_doc_id = node.doc_id)
      (htype : hop.link_type ∈ twoHopTypes) :
      Reaches seed node (path ++ [hop])
        (stepScore float score hop * float.ofRat hopDecay) 2

/-- The neighbour is what its path says. -/
structure Explained (seed : Int × R) (item : Neighbor R) : Prop where
  node : OpenNode asker db seed_ids item.metadata
  seed_eq : item.seed_doc_id = seed.1
  path : Reaches float asker db seed_ids seed item.metadata item.graph_paths
    item.graph_score item.graph_depth
  last : forall hop, item.graph_paths = [hop] ->
    item.link_type = hop.link_type

variable {float asker db seed_ids}

/-- What a candidate of a row is. -/
theorem of_considerFrom {seed_doc_id : Int} {direction : Direction}
    {link_types : List String} {decay : R -> R} {origin : Origin R}
    {row : EdgeRow R} {item : Neighbor R}
    (hedge : IsEdge db origin.doc_id direction link_types row)
    (h : considerFrom float asker seed_doc_id seed_ids link_types decay origin
      row = some item) :
    OpenNode asker db seed_ids item.metadata ∧
      item.seed_doc_id = seed_doc_id ∧
      item.graph_depth = origin.graph_depth + 1 ∧
      exists hop, Linked float asker db origin.doc_id hop ∧
        hop.to_doc_id = item.metadata.doc_id ∧
        hop.link_type ∈ link_types ∧
        item.link_type = hop.link_type ∧
        item.graph_paths = origin.graph_paths ++ [hop] ∧
        item.graph_score = decay (stepScore float origin.score hop) := by
  unfold considerFrom at h
  dsimp only at h
  split at h
  · cases h
  · split at h
    · cases h
    · split at h
      · cases h
      · rename_i hseed
        split at h
        · rename_i weight confidence hweight hconfidence
          split at h
          · cases h
          · rename_i hauthorized
            split at h
            · cases h
            · rename_i heligible
              cases h
              have hid := hedge.document_id
              have hfound := hedge.found
              rw [← hid] at hfound
              constructor
              · exact
                  { found := ⟨row.document, hfound, rfl, hedge.eligible⟩
                    authorized := by
                      rw [Bool.not_eq_true', Bool.not_eq_false] at hauthorized
                      exact hauthorized
                    eligible := by
                      rw [Bool.not_eq_true', Bool.not_eq_false] at heligible
                      exact heligible
                    no_seed := by
                      intro hin
                      exact hseed (List.contains_iff_mem.mpr hin) }
              constructor
              · rfl
              constructor
              · rfl
              · have hdirection := hedge.direction_eq
                refine ⟨_, ?_, rfl, hedge.link_type, rfl, rfl, rfl⟩
                exact
                  { from_doc_id := rfl
                    store_id := rfl
                    link := ⟨row.link, hedge.link, hedge.active,
                      by rw [hdirection]; exact hedge.seed,
                      by rw [hdirection]; exact hid.symm,
                      rfl, hweight, hconfidence, rfl, rfl, rfl⟩ }
        · cases h

/-- The candidates of one hop from a seed. -/
def Direct (float : FloatHost R) (asker : Asker) (db : GraphStore R)
    (seed_ids : List Int) (seed : Int × R) (item : Neighbor R) : Prop :=
  Explained float asker db seed_ids seed item ∧ item.graph_depth = 1 ∧
    exists hop, item.graph_paths = [hop]

theorem direct_of_candidate {seed : Int × R} {item : Neighbor R}
    (h : item ∈ candidates db allowedLinkTypes seed.1
      (considerEdge float asker seed.1 seed_ids seed.2)) :
    Direct float asker db seed_ids seed item := by
  have hrow : exists direction row,
      IsEdge db seed.1 direction allowedLinkTypes row ∧
        considerEdge float asker seed.1 seed_ids seed.2 row = some item := by
    rcases List.mem_append.mp h with hout | hin
    · rcases List.mem_filterMap.mp hout with ⟨row, hrow, hitem⟩
      exact ⟨.outgoing, row, isEdge_of_rowsInOrder _ _ _ _ hrow, hitem⟩
    · rcases List.mem_filterMap.mp hin with ⟨row, hrow, hitem⟩
      exact ⟨.incoming, row, isEdge_of_rowsInOrder _ _ _ _ hrow, hitem⟩
  rcases hrow with ⟨direction, row, hedge, hitem⟩
  unfold considerEdge at hitem
  rcases of_considerFrom hedge hitem with
    ⟨hnode, hseed, hdepth, hop, hlink, hto, htype, hlast, hpaths, hscore⟩
  have hone : item.graph_depth = 1 := hdepth
  have hsingle : item.graph_paths = [hop] := hpaths
  constructor
  · constructor
    · exact hnode
    · exact hseed
    · rw [hsingle, hscore, hone]
      exact Reaches.direct hlink hnode hto htype
    · intro other hother
      rw [hsingle] at hother
      rw [← (List.cons.inj hother).1]
      exact hlast
  · exact ⟨hone, hop, hsingle⟩

theorem far_of_candidate {seed : Int × R} {parent item : Neighbor R}
    (hparent : Direct float asker db seed_ids seed parent)
    (hcarries : twoHopTypes.contains parent.link_type = true)
    (h : item ∈ candidates db twoHopTypes parent.doc_id
      (considerSecondHop float asker seed.1 seed_ids parent)) :
    Explained float asker db seed_ids seed item ∧ item.graph_depth = 2 := by
  have hrow : exists direction row,
      IsEdge db parent.doc_id direction twoHopTypes row ∧
        considerSecondHop float asker seed.1 seed_ids parent row =
          some item := by
    rcases List.mem_append.mp h with hout | hin
    · rcases List.mem_filterMap.mp hout with ⟨row, hrow, hitem⟩
      exact ⟨.outgoing, row, isEdge_of_rowsInOrder _ _ _ _ hrow, hitem⟩
    · rcases List.mem_filterMap.mp hin with ⟨row, hrow, hitem⟩
      exact ⟨.incoming, row, isEdge_of_rowsInOrder _ _ _ _ hrow, hitem⟩
  rcases hrow with ⟨direction, row, hedge, hitem⟩
  rcases hparent with ⟨hexplained, hone, first, hsingle⟩
  unfold considerSecondHop at hitem
  rcases of_considerFrom hedge hitem with
    ⟨hnode, hseed, hdepth, hop, hlink, hto, htype, _, hpaths, hscore⟩
  have htwo : item.graph_depth = 2 := by
    rw [hdepth, hone]
  have hmiddle := hexplained.path
  rw [hone] at hmiddle
  have hfirst : forall other, other ∈ parent.graph_paths ->
      other.link_type ∈ twoHopTypes := by
    intro other hother
    rw [hsingle] at hother
    rw [List.mem_singleton.mp hother, ← hexplained.last first hsingle]
    exact List.contains_iff_mem.mp hcarries
  constructor
  · constructor
    · exact hnode
    · exact hseed
    · rw [htwo, hpaths, hscore]
      exact Reaches.far hmiddle hfirst hlink hnode hto htype
    · intro other hother
      exfalso
      rw [hpaths, hsingle] at hother
      cases hother
  · exact htwo

theorem explained_of_seed {seed : Int × R} {max_depth : Nat}
    {entry : Hydrated R}
    (h : entry ∈ eligibleNeighborsForSeed float asker db seed_ids max_depth
      seed) :
    Explained float asker db seed_ids seed entry.item ∧
      (entry.item.graph_depth = 2 -> 2 ≤ max_depth) ∧
      entry = hydrateText db entry.item := by
  let P : Neighbor R -> Prop := fun item =>
    Explained float asker db seed_ids seed item ∧
      (item.graph_depth = 2 -> 2 ≤ max_depth)
  unfold eligibleNeighborsForSeed at h
  dsimp only at h
  rcases List.mem_map.mp h with ⟨item, hitem, rfl⟩
  have hsame : (hydrateText db item).item = item := by
    unfold hydrateText
    split <;> rfl
  rw [hsame]
  have hranked := List.mem_of_mem_take hitem
  have hdirect : Kept (Direct float asker db seed_ids seed)
      (walkBoth db allowedLinkTypes seed.1
        (considerEdge float asker seed.1 seed_ids seed.2) edgeWins) := by
    rw [walkBoth_eq]
    exact kept_foldl kept_nil fun item hitem => direct_of_candidate hitem
  have hweak : forall {best : Best R},
      Kept (Direct float asker db seed_ids seed) best -> Kept P best := by
    intro best hbest
    constructor
    · exact hbest.nodup
    · intro entry hentry
      rcases hbest.entries entry hentry with ⟨hkey, hexplained, hone, _⟩
      refine ⟨hkey, hexplained, ?_⟩
      intro htwo
      rw [hone] at htwo
      cases htwo
  have hbest : Kept P (if 2 ≤ max_depth then
      mergeSecondHop float asker db seed_ids seed.1
        (walkBoth db allowedLinkTypes seed.1
          (considerEdge float asker seed.1 seed_ids seed.2) edgeWins)
      else walkBoth db allowedLinkTypes seed.1
        (considerEdge float asker seed.1 seed_ids seed.2) edgeWins) := by
    split
    · rename_i hdeep
      generalize walkBoth db allowedLinkTypes seed.1
        (considerEdge float asker seed.1 seed_ids seed.2) edgeWins =
          start at hdirect
      unfold mergeSecondHop
      have hparents : forall parent, parent ∈ frontier start ->
          Direct float asker db seed_ids seed parent ∧
            twoHopTypes.contains parent.link_type = true := by
        intro parent hparent
        rcases List.mem_filter.mp hparent with ⟨hin, htype⟩
        exact ⟨of_mem_ranked hdirect (List.mem_of_mem_take hin), htype⟩
      have hstart := hweak hdirect
      generalize frontier start = parents at hparents
      generalize start = best at hstart
      induction parents generalizing best with
      | nil => exact hstart
      | cons parent parents ih =>
          rcases hparents parent List.mem_cons_self with ⟨hparent, htype⟩
          apply ih
          · intro other hother
            exact hparents other (List.mem_cons_of_mem parent hother)
          · apply kept_foldl hstart
            intro far hfar
            have hin := List.mem_of_mem_take hfar
            have hkept : Kept (fun item =>
                Explained float asker db seed_ids seed item ∧
                  item.graph_depth = 2)
                (walkBoth db twoHopTypes parent.doc_id
                  (considerSecondHop float asker seed.1 seed_ids parent)
                    farWins) := by
              rw [walkBoth_eq]
              exact kept_foldl kept_nil fun item hitem =>
                far_of_candidate hparent htype hitem
            rcases of_mem_ranked hkept hin with ⟨hexplained, _⟩
            exact ⟨hexplained, fun _ => hdeep⟩
    · exact hweak hdirect
  rcases of_mem_ranked hbest hranked with ⟨hexplained, hdepth⟩
  exact ⟨hexplained, hdepth, rfl⟩

end Paths

/-!
## The final list
-/

section Final

variable {R : Type} [LinearOrder R]

/-- The entries come from the collected ones, each under its document. -/
structure Gathered (collected : List (Hydrated R))
    (best : List (Int × Hydrated R)) : Prop where
  nodup : (best.map (·.1)).Nodup
  entries : forall entry, entry ∈ best ->
    entry.1 = entry.2.item.doc_id ∧ entry.2 ∈ collected

omit [LinearOrder R] in
theorem gathered_set {collected : List (Hydrated R)}
    {best : List (Int × Hydrated R)} (h : Gathered collected best)
    {entry : Hydrated R} (hentry : entry ∈ collected) :
    Gathered collected (Dict.set entry.item.doc_id entry best) where
  nodup := Dict.nodup_keys_set h.nodup
  entries := by
    intro other hother
    rcases Dict.mem_of_mem_set hother with rfl | hold
    · exact ⟨rfl, hentry⟩
    · exact h.entries other hold

theorem gathered_foldl {collected items : List (Hydrated R)}
    (store_id : String) {best : List (Int × Hydrated R)}
    (h : Gathered collected best)
    (hitems : forall entry, entry ∈ items -> entry ∈ collected) :
    Gathered collected (items.foldl (finalKeep store_id) best) := by
  induction items generalizing best with
  | nil => exact h
  | cons entry items ih =>
      rw [List.foldl_cons]
      apply ih
      · have hin := hitems entry List.mem_cons_self
        unfold finalKeep
        split
        · exact h
        · dsimp only
          split
          · exact gathered_set h hin
          · split
            · exact gathered_set h hin
            · exact h
      · intro other hother
        exact hitems other (List.mem_cons_of_mem entry hother)

/-- The answer is made of collected entries, one for each document, and is no
longer than its bound. -/
theorem finalize_spec (collected : List (Hydrated R)) (store_id : String) :
    ((finalize collected store_id).map fun entry =>
        entry.hydrated.item.doc_id).Nodup ∧
      (finalize collected store_id).length ≤ maxGraphCandidates ∧
      forall entry, entry ∈ finalize collected store_id ->
        entry.hydrated ∈ collected := by
  have hgathered : Gathered collected
      (collected.foldl (finalKeep store_id) []) :=
    gathered_foldl store_id
      { nodup := List.nodup_nil
        entries := fun _ h => nomatch h }
      fun _ h => h
  unfold finalize
  dsimp only
  generalize collected.foldl (finalKeep store_id) [] = best at hgathered
  generalize hordered : (best.map (·.2)).mergeSort _ = ordered
  have hperm : ordered.Perm (best.map (·.2)) := by
    rw [← hordered]
    exact List.mergeSort_perm _ _
  have hids : (best.map (·.2)).map (fun entry => entry.item.doc_id) =
      best.map (·.1) := by
    rw [List.map_map]
    apply List.map_congr_left
    intro entry hentry
    exact (hgathered.entries entry hentry).1.symm
  constructor
  · rw [List.map_map]
    have hsame : ((ordered.take maxGraphCandidates).zipIdx.map
        ((fun entry : Ranked R => entry.hydrated.item.doc_id) ∘
          fun entry => { hydrated := entry.1, graph_rank := entry.2 + 1 })) =
        (ordered.take maxGraphCandidates).map
          fun entry => entry.item.doc_id := by
      have hfst := List.zipIdx_map_fst 0 (ordered.take maxGraphCandidates)
      calc (ordered.take maxGraphCandidates).zipIdx.map _
          = ((ordered.take maxGraphCandidates).zipIdx.map Prod.fst).map
              fun entry => entry.item.doc_id := by
            rw [List.map_map]
            rfl
        _ = (ordered.take maxGraphCandidates).map
              fun entry => entry.item.doc_id := by rw [hfst]
    rw [hsame]
    have hnodup : (ordered.map fun entry => entry.item.doc_id).Nodup := by
      rw [(hperm.map fun entry => entry.item.doc_id).nodup_iff, hids]
      exact hgathered.nodup
    exact hnodup.sublist ((List.take_sublist _ _).map _)
  constructor
  · rw [List.length_map, List.length_zipIdx, List.length_take]
    exact Nat.min_le_left _ _
  · intro entry hentry
    rcases List.mem_map.mp hentry with ⟨pair, hpair, rfl⟩
    have hin : pair.1 ∈ ordered.take maxGraphCandidates :=
      List.fst_mem_of_mem_zipIdx hpair
    have hbest := hperm.mem_iff.mp (List.mem_of_mem_take hin)
    rcases List.mem_map.mp hbest with ⟨kept, hkept, hsame⟩
    rw [← hsame]
    exact (hgathered.entries kept hkept).2

end Final

/-!
## Documents that come and go
-/

section Without

variable {R : Type} (db : GraphStore R) (gone : Int -> Bool)

/-- The store without some documents, the links that touch them and their
chunks. -/
def GraphStore.without : GraphStore R where
  file := db.file
  ready := db.ready
  documents := db.documents.filter fun row => !gone row.doc_id
  links := db.links.filter fun link =>
    !gone link.source_doc_id && !gone link.target_doc_id
  chunk_embeddings := db.chunk_embeddings.filter fun chunk =>
    !gone chunk.doc_id
  documents_key := db.documents_key.filter _
  links_key := db.links_key.filter _

variable {gone}

theorem find_without (doc_id : Int) :
    (db.without gone).find doc_id =
      if gone doc_id then none else db.find doc_id := by
  unfold GraphStore.find GraphStore.without
  rw [List.find?_filter]
  by_cases hgone : gone doc_id = true
  · rw [if_pos hgone, List.find?_eq_none]
    intro row _ hrow
    have hboth := of_decide_eq_true hrow
    rw [of_decide_eq_true hboth.2, hgone] at hboth
    cases hboth.1
  · rw [if_neg hgone]
    congr 1
    funext row
    by_cases hid : row.doc_id = doc_id
    · simp [hid, hgone]
    · simp [hid]

/-- Seen from a node that stays, the rows of the others are left out. -/
theorem edgeRows_without {doc_id : Int} (hstays : gone doc_id = false)
    (direction : Direction) (link_types : List String) :
    edgeRows (db.without gone) doc_id direction link_types =
      (edgeRows db doc_id direction link_types).filter fun row =>
        !gone row.document.doc_id := by
  unfold edgeRows
  rw [List.filter_filterMap]
  show List.filterMap _ (db.links.filter _) = _
  rw [List.filterMap_filter]
  apply List.filterMap_congr
  intro link _
  by_cases hwhere : direction.seedCol link = doc_id ∧
      link.edge_status = "active" ∧ link.link_type ∈ link_types ∧
      link.source_doc_id ≠ link.target_doc_id
  · rw [if_pos hwhere, if_pos hwhere, find_without]
    have hends : (!gone link.source_doc_id && !gone link.target_doc_id) =
        !gone (direction.neighborCol link) := by
      have hseed := hwhere.1
      cases direction with
      | outgoing =>
          have hsource : link.source_doc_id = doc_id := hseed
          rw [hsource, hstays]
          rfl
      | incoming =>
          have htarget : link.target_doc_id = doc_id := hseed
          rw [htarget, hstays, Bool.not_false, Bool.and_true]
          rfl
    rw [hends]
    cases hgone : gone (direction.neighborCol link) with
    | true =>
        cases hfound : db.find (direction.neighborCol link) with
        | none => rfl
        | some document =>
            have hid := (find_spec hfound).2
            cases heligible : sqlEligible document with
            | false => simp [heligible]
            | true => simp [heligible, Option.filter, hid, hgone]
    | false =>
        cases hfound : db.find (direction.neighborCol link) with
        | none => rfl
        | some document =>
            have hid := (find_spec hfound).2
            cases heligible : sqlEligible document with
            | false => simp [heligible]
            | true => simp [heligible, Option.filter, hid, hgone]
  · rw [if_neg hwhere, if_neg hwhere]
    split
    · rfl
    · rfl

/-- A row that gives no candidate may be left out. -/
theorem candidates_without {doc_id : Int} (hstays : gone doc_id = false)
    (link_types : List String) (consider : EdgeRow R -> Option (Neighbor R))
    (hblind : forall row : EdgeRow R, row.document ∈ db.documents ->
      gone row.document.doc_id = true -> sqlEligible row.document = true ->
        consider row = none) :
    candidates (db.without gone) link_types doc_id consider =
      candidates db link_types doc_id consider := by
  have hone : forall direction,
      (rowsInOrder (db.without gone) link_types doc_id direction).filterMap
          consider =
        (rowsInOrder db link_types doc_id direction).filterMap consider := by
    intro direction
    have hrows : rowsInOrder (db.without gone) link_types doc_id direction =
        (rowsInOrder db link_types doc_id direction).filter fun row =>
          !gone row.document.doc_id := by
      unfold rowsInOrder
      rw [edgeRows_without db hstays, ← Paging.inOrder_filter
        (edgeRows_distinct.filter _), List.filter_comm]
    rw [hrows, List.filterMap_filter]
    apply List.filterMap_congr
    intro row hrow
    have hedge := isEdge_of_rowsInOrder _ _ _ _ hrow
    split
    · rfl
    · rename_i hgone
      rw [Bool.not_eq_true', Bool.not_eq_false] at hgone
      exact (hblind row (find_spec hedge.found).1 hgone hedge.eligible).symm
  unfold candidates
  rw [hone, hone]

theorem hydrateText_without {item : Neighbor R}
    (hstays : gone item.doc_id = false) :
    hydrateText (db.without gone) item = hydrateText db item := by
  unfold hydrateText
  have hchunk : firstChunk (db.without gone).chunk_embeddings item.doc_id =
      firstChunk db.chunk_embeddings item.doc_id := by
    unfold firstChunk
    show List.head? (List.mergeSort (List.filter _ (List.filter _ _)) _) = _
    rw [List.filter_filter]
    congr 2
    apply List.filter_congr
    intro chunk _
    by_cases hid : chunk.doc_id = item.doc_id
    · simp [hid, hstays]
    · simp [hid]
  rw [hchunk]

end Without

/-!
## Blindness
-/

def askerOf {R : Type} (request : ExpandRequest R)
    (principal : Daemon.EffectivePrincipal) (file : String) : Asker where
  host := request.host
  principal := principal
  workspace := request.workspace
  store_id := file

/-- The document is named in the seed list. -/
def Listed {R : Type} (request : ExpandRequest R) (doc_id : Int) : Prop :=
  exists items item, request.seeds = some items ∧ some item ∈ items ∧
    item.doc_id = some doc_id

/-- The principal may not read it, or it is outside the seed list and closed,
blocked or no learning. -/
def Hidden {R : Type} (request : ExpandRequest R) (file : String)
    (row : DocumentRow) : Prop :=
  forall principal, request.principal = some principal ->
    (askerOf request principal file).authorized
        (documentMetadata row file) = false ∨
      (¬ Listed request row.doc_id ∧
        (sqlEligible row = false ∨
          (askerOf request principal file).neighborEligible
            (documentMetadata row file) = false))

section Seeds

variable {R : Type} {float : FloatHost R} {store_id : String}

theorem mem_boundedSeedsFrom {items : List (Option (SeedItem R))}
    {ranked result : List (Int × R)}
    (h : boundedSeedsFrom float store_id items ranked = .ok result)
    {seed : Int × R} (hseed : seed ∈ result) :
    seed ∈ ranked ∨ exists item, some item ∈ items ∧
      item.doc_id = some seed.1 := by
  induction items generalizing ranked with
  | nil =>
      cases h
      exact Or.inl hseed
  | cons first rest ih =>
      have hlater : forall {next : List (Int × R)},
          boundedSeedsFrom float store_id rest next = .ok result ->
          seed ∈ next ∨ exists item, some item ∈ first :: rest ∧
            item.doc_id = some seed.1 := by
        intro next hnext
        rcases ih hnext with hin | ⟨item, hitem, hid⟩
        · exact Or.inl hin
        · exact Or.inr ⟨item, List.mem_cons_of_mem first hitem, hid⟩
      cases first with
      | none => exact hlater h
      | some raw =>
          have hadded : forall {score : R} {doc_id : Int},
              raw.doc_id = some doc_id -> seed ∈ ranked ++ [(doc_id, score)] ->
              seed ∈ ranked ∨ exists item, some item ∈ some raw :: rest ∧
                item.doc_id = some seed.1 := by
            intro score doc_id hid hin
            rcases List.mem_append.mp hin with hold | hnew
            · exact Or.inl hold
            · rw [List.mem_singleton.mp hnew]
              exact Or.inr ⟨raw, List.mem_cons_self, hid⟩
          unfold boundedSeedsFrom at h
          split at h
          · rename_i doc_id score seed_store hid _ _
            split at h
            · cases h
            · split at h
              · exact hlater h
              · split at h
                · cases h
                  exact hadded hid hseed
                · rcases hlater h with hin | hitem
                  · exact hadded hid hin
                  · exact Or.inr hitem
          · exact hlater h

theorem listed_of_boundedSeeds {request : ExpandRequest R}
    {result : List (Int × R)}
    (h : boundedSeeds request.float request.seeds store_id = .ok result)
    {seed : Int × R} (hseed : seed ∈ result) : Listed request seed.1 := by
  unfold boundedSeeds at h
  cases hitems : request.seeds with
  | none =>
      rw [hitems] at h
      cases h
  | some items =>
      rw [hitems] at h
      rcases mem_boundedSeedsFrom h hseed with hnone | ⟨item, hitem, hid⟩
      · cases hnone
      · exact ⟨items, item, hitems, List.mem_of_mem_take hitem, hid⟩

end Seeds

section Blind

variable {R : Type} {request : ExpandRequest R} {db : GraphStore R}
variable {principal : Daemon.EffectivePrincipal} {gone : Int -> Bool}

/-- Every document that is gone is hidden from the principal. -/
def AllHidden (request : ExpandRequest R) (db : GraphStore R)
    (gone : Int -> Bool) : Prop :=
  forall row, row ∈ db.documents -> gone row.doc_id = true ->
    Hidden request db.file row

theorem authorizeSeeds_without (hprincipal : request.principal = some principal)
    (hhidden : AllHidden request db gone) {ranked_seeds : List (Int × R)}
    (hlisted : forall seed, seed ∈ ranked_seeds -> Listed request seed.1) :
    authorizeSeeds (askerOf request principal db.file) (db.without gone)
        ranked_seeds =
      authorizeSeeds (askerOf request principal db.file) db ranked_seeds := by
  unfold authorizeSeeds
  apply List.filter_congr
  intro seed hseed
  rw [find_without]
  cases hgone : gone seed.1 with
  | false => rfl
  | true =>
      rw [if_pos rfl]
      cases hfound : db.find seed.1 with
      | none => rfl
      | some row =>
          rcases find_spec hfound with ⟨hrow, hid⟩
          rw [← hid] at hgone
          rcases hhidden row hrow hgone principal hprincipal with
            hdenied | ⟨hunlisted, _⟩
          · show false = (Asker.authorized _ (documentMetadata row db.file) &&
              _)
            rw [hdenied]
            rfl
          · rw [hid] at hunlisted
            exact absurd (hlisted seed hseed) hunlisted

theorem stays_of_authorizeSeeds
    (hprincipal : request.principal = some principal)
    (hhidden : AllHidden request db gone) {ranked_seeds : List (Int × R)}
    (hlisted : forall seed, seed ∈ ranked_seeds -> Listed request seed.1)
    {seed : Int × R}
    (hseed : seed ∈ authorizeSeeds (askerOf request principal db.file) db
      ranked_seeds) : gone seed.1 = false := by
  rw [← authorizeSeeds_without hprincipal hhidden hlisted] at hseed
  have hkept := (List.mem_filter.mp hseed).2
  rw [find_without] at hkept
  cases hgone : gone seed.1 with
  | false => rfl
  | true =>
      rw [hgone] at hkept
      cases hkept

/-- A node that is open to the principal stays. -/
theorem stays_of_openNode (hprincipal : request.principal = some principal)
    (hhidden : AllHidden request db gone) {seed_ids : List Int}
    {node : Metadata}
    (h : OpenNode (askerOf request principal db.file) db seed_ids node) :
    gone node.doc_id = false := by
  cases hgone : gone node.doc_id with
  | false => rfl
  | true =>
      exfalso
      rcases h.found with ⟨row, hfound, hnode, heligible⟩
      rcases find_spec hfound with ⟨hrow, hid⟩
      rw [← hid] at hgone
      have hauthorized := h.authorized
      have hopen := h.eligible
      rw [hnode] at hauthorized hopen
      rcases hhidden row hrow hgone principal hprincipal with
        hdenied | ⟨_, hclosed⟩
      · exact Bool.false_ne_true (hdenied.symm.trans hauthorized)
      · rcases hclosed with hsql | hpython
        · exact Bool.false_ne_true (hsql.symm.trans heligible)
        · exact Bool.false_ne_true (hpython.symm.trans hopen)

variable [LinearOrder R] [Mul R]

/-- A hidden document gives no candidate, in either hop. -/
theorem considerFrom_hidden (hprincipal : request.principal = some principal)
    {row : EdgeRow R} (hhidden : Hidden request db.file row.document)
    (heligible : sqlEligible row.document = true) (float : FloatHost R)
    (seed_doc_id : Int) (seed_ids : List Int) (link_types : List String)
    (decay : R -> R) (origin : Origin R) :
    considerFrom float (askerOf request principal db.file) seed_doc_id
      seed_ids link_types decay origin row = none := by
  unfold considerFrom
  dsimp only
  split
  · rfl
  · split
    · rfl
    · split
      · rfl
      · split
        · rcases hhidden principal hprincipal with hdenied | ⟨_, hclosed⟩
          · have hrefused : (askerOf request principal db.file).authorized
                (documentMetadata row.document
                  (askerOf request principal db.file).store_id) = false :=
              hdenied
            rw [hrefused]
            rfl
          · rcases hclosed with hsql | hpython
            · rw [hsql] at heligible
              cases heligible
            · have hrefused :
                  (askerOf request principal db.file).neighborEligible
                    (documentMetadata row.document
                      (askerOf request principal db.file).store_id) = false :=
                hpython
              rw [hrefused]
              split
              · rfl
              · rfl
        · rfl

theorem candidates_hidden (hprincipal : request.principal = some principal)
    (hhidden : AllHidden request db gone) {doc_id : Int}
    (hstays : gone doc_id = false) (float : FloatHost R) (seed_doc_id : Int)
    (seed_ids : List Int) (types link_types : List String) (decay : R -> R)
    (origin : Origin R) :
    candidates (db.without gone) types doc_id
        (considerFrom float (askerOf request principal db.file) seed_doc_id
          seed_ids link_types decay origin) =
      candidates db types doc_id
        (considerFrom float (askerOf request principal db.file) seed_doc_id
          seed_ids link_types decay origin) := by
  apply candidates_without db hstays
  intro row hrow hgone heligible
  exact considerFrom_hidden hprincipal (hhidden row.document hrow hgone)
    heligible float seed_doc_id seed_ids link_types decay origin

theorem eligibleNeighborsForSeed_without
    (hprincipal : request.principal = some principal)
    (hhidden : AllHidden request db gone) {float : FloatHost R}
    {seed_ids : List Int} {max_depth : Nat} {seed : Int × R}
    (hstays : gone seed.1 = false) :
    eligibleNeighborsForSeed float (askerOf request principal db.file)
        (db.without gone) seed_ids max_depth seed =
      eligibleNeighborsForSeed float (askerOf request principal db.file) db
        seed_ids max_depth seed := by
  have hexplained : forall item,
      hydrateText db item ∈ eligibleNeighborsForSeed float
        (askerOf request principal db.file) db seed_ids max_depth seed ->
      gone item.doc_id = false := by
    intro item hitem
    have hnode := (explained_of_seed hitem).1.node
    have hsame : (hydrateText db item).item = item := by
      unfold hydrateText
      split <;> rfl
    rw [hsame] at hnode
    exact stays_of_openNode hprincipal hhidden hnode
  have hfirst : walkBoth (db.without gone) allowedLinkTypes seed.1
      (considerEdge float (askerOf request principal db.file) seed.1 seed_ids
        seed.2) edgeWins =
      walkBoth db allowedLinkTypes seed.1
        (considerEdge float (askerOf request principal db.file) seed.1 seed_ids
          seed.2) edgeWins := by
    rw [walkBoth_eq, walkBoth_eq]
    exact congrArg _ (candidates_hidden hprincipal hhidden hstays float seed.1
      seed_ids allowedLinkTypes allowedLinkTypes id _)
  have hsecond : mergeSecondHop float (askerOf request principal db.file)
      (db.without gone) seed_ids seed.1
        (walkBoth db allowedLinkTypes seed.1
          (considerEdge float (askerOf request principal db.file) seed.1
            seed_ids seed.2) edgeWins) =
      mergeSecondHop float (askerOf request principal db.file) db seed_ids
        seed.1
        (walkBoth db allowedLinkTypes seed.1
          (considerEdge float (askerOf request principal db.file) seed.1
            seed_ids seed.2) edgeWins) := by
    unfold mergeSecondHop
    apply List.foldl_ext
    intro best parent hparent
    have hkept : Kept (Direct float (askerOf request principal db.file) db
        seed_ids seed)
        (walkBoth db allowedLinkTypes seed.1
          (considerEdge float (askerOf request principal db.file) seed.1
            seed_ids seed.2) edgeWins) := by
      rw [walkBoth_eq]
      exact kept_foldl kept_nil fun item hitem => direct_of_candidate hitem
    have hranked := List.mem_of_mem_take (List.mem_filter.mp hparent).1
    have hnode := (of_mem_ranked hkept hranked).1.node
    have hparentStays := stays_of_openNode hprincipal hhidden hnode
    have hfar : secondHopForParent float (askerOf request principal db.file)
        (db.without gone) seed_ids seed.1 parent =
        secondHopForParent float (askerOf request principal db.file) db
          seed_ids seed.1 parent := by
      unfold secondHopForParent
      rw [walkBoth_eq, walkBoth_eq]
      have hsame := candidates_hidden hprincipal hhidden hparentStays float
        seed.1 seed_ids twoHopTypes twoHopTypes
        (fun score => score * float.ofRat hopDecay)
        { doc_id := parent.doc_id
          score := parent.graph_score
          graph_paths := parent.graph_paths
          graph_depth := parent.graph_depth }
      exact congrArg (fun items : List (Neighbor R) =>
        (ranked (items.foldl (keep farWins) [])).take maxNeighborsPerSeed) hsame
    rw [hfar]
  unfold eligibleNeighborsForSeed at hexplained ⊢
  dsimp only at hexplained ⊢
  rw [hfirst, hsecond]
  apply List.map_congr_left
  intro item hitem
  exact hydrateText_without db
    (hexplained item (List.mem_map_of_mem hitem))

theorem collect_without (hprincipal : request.principal = some principal)
    (hhidden : AllHidden request db gone) {float : FloatHost R}
    {max_depth : Nat} {ranked_seeds : List (Int × R)}
    (hlisted : forall seed, seed ∈ ranked_seeds -> Listed request seed.1) :
    collect float (askerOf request principal db.file) (db.without gone)
        max_depth ranked_seeds =
      collect float (askerOf request principal db.file) db max_depth
        ranked_seeds := by
  unfold collect
  dsimp only
  rw [authorizeSeeds_without hprincipal hhidden hlisted]
  apply List.flatMap_congr
  intro seed hseed
  exact eligibleNeighborsForSeed_without hprincipal hhidden
    (stays_of_authorizeSeeds hprincipal hhidden hlisted hseed)

theorem expandTypedGraph_without (hhidden : AllHidden request db gone) :
    expandTypedGraph request (db.without gone) =
      expandTypedGraph request db := by
  unfold expandTypedGraph
  split
  · rfl
  · split
    · rfl
    · rename_i principal hprincipal
      split
      · rfl
      · split
        · rfl
        · split
          · rfl
          · split
            · rfl
            · rfl
            · rename_i ranked_seeds _ hseeds
              have hlisted : forall seed, seed ∈ ranked_seeds ->
                  Listed request seed.1 :=
                fun seed hseed => listed_of_boundedSeeds hseeds hseed
              have hsame : collect request.float
                  (askerOf request principal db.file) (db.without gone)
                    request.max_depth.toNat ranked_seeds =
                  collect request.float (askerOf request principal db.file) db
                    request.max_depth.toNat ranked_seeds :=
                collect_without hprincipal hhidden hlisted
              show (if request.store_id ≠ db.file then _ else if !db.ready then
                _ else _) = _
              split
              · rfl
              · split
                · rfl
                · exact congrArg
                    (fun collected : List (Hydrated R) =>
                      (Except.ok
                        { neighbors := finalize collected db.file
                          graph_status := GraphStatus.ok } :
                        Except ExpandError (GraphExpansionResult R))) hsame

end Blind

/-!
## The law
-/

section Law

variable {R : Type} [LinearOrder R] [Mul R]

/-- A neighbour of an answer: it is explained by a path from an authorized
seed, of the depth that is asked for at most. -/
def Justified (request : ExpandRequest R) (db : GraphStore R)
    (entry : Ranked R) : Prop :=
  exists principal ranked_seeds seed,
    request.principal = some principal ∧
    boundedSeeds request.float request.seeds request.store_id =
      .ok ranked_seeds ∧
    seed ∈ authorizeSeeds (askerOf request principal db.file) db
      ranked_seeds ∧
    Explained request.float (askerOf request principal db.file) db
      ((authorizeSeeds (askerOf request principal db.file) db
        ranked_seeds).map (·.1)) seed entry.hydrated.item ∧
    (entry.hydrated.item.graph_depth = 2 -> request.max_depth = 2) ∧
    entry.hydrated = hydrateText db entry.hydrated.item

theorem justified_of_expand {request : ExpandRequest R} {db : GraphStore R}
    {result : GraphExpansionResult R}
    (h : expandTypedGraph request db = .ok result) :
    (result.neighbors.map fun entry => entry.hydrated.item.doc_id).Nodup ∧
      result.neighbors.length ≤ maxGraphCandidates ∧
      forall entry, entry ∈ result.neighbors ->
        Justified request db entry := by
  have hnone : forall status : GraphStatus,
      (Except.ok { neighbors := [], graph_status := status } :
        Except ExpandError (GraphExpansionResult R)) = .ok result ->
      (result.neighbors.map fun entry => entry.hydrated.item.doc_id).Nodup ∧
        result.neighbors.length ≤ maxGraphCandidates ∧
        forall entry, entry ∈ result.neighbors ->
          Justified request db entry := by
    intro status hstatus
    cases hstatus
    exact ⟨List.nodup_nil, Nat.zero_le _, fun _ hentry => nomatch hentry⟩
  unfold expandTypedGraph at h
  split at h
  · cases h
  · split at h
    · exact hnone _ h
    · rename_i principal hprincipal
      split at h
      · cases h
      · split at h
        · cases h
        · rename_i hdepth
          split at h
          · exact hnone _ h
          · split at h
            · cases h
            · exact hnone _ h
            · rename_i ranked_seeds _ hseeds
              split at h
              · cases h
              · split at h
                · exact hnone _ h
                · cases h
                  have hfinal := finalize_spec (collect request.float
                    (askerOf request principal db.file) db
                      request.max_depth.toNat ranked_seeds) db.file
                  refine ⟨hfinal.1, hfinal.2.1, ?_⟩
                  intro entry hentry
                  rcases List.mem_flatMap.mp (hfinal.2.2 entry hentry) with
                    ⟨seed, hseed, hin⟩
                  rcases explained_of_seed hin with
                    ⟨hexplained, hdeep, htext⟩
                  refine ⟨principal, ranked_seeds, seed, hprincipal, hseeds,
                    hseed, hexplained, ?_, htext⟩
                  intro htwo
                  have hlarge := hdeep htwo
                  by_contra hne
                  have hone : request.max_depth = 1 := by
                    by_contra hother
                    exact hdepth ⟨hother, hne⟩
                  rw [hone] at hlarge
                  revert hlarge
                  decide

/-- The answer is blind to what is hidden, and each neighbour of it is joined
to an authorized seed. -/
theorem expansion_blind_and_justified (request : ExpandRequest R)
    (db : GraphStore R) :
    (forall gone : Int -> Bool,
      (forall row, row ∈ db.documents -> gone row.doc_id = true ->
        Hidden request db.file row) ->
      expandTypedGraph request (db.without gone) =
        expandTypedGraph request db) ∧
    (forall result, expandTypedGraph request db = .ok result ->
      (result.neighbors.map fun entry => entry.hydrated.item.doc_id).Nodup ∧
        result.neighbors.length ≤ maxGraphCandidates ∧
        forall entry, entry ∈ result.neighbors ->
          Justified request db entry) := by
  constructor
  · intro gone hhidden
    exact expandTypedGraph_without hhidden
  · intro result h
    exact justified_of_expand h

end Law

end Expansion
end Recall
end Minni
