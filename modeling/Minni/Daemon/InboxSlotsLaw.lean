import Minni.Daemon.InboxSlots
import Mathlib.Data.List.Nodup

/-!
# Slot assignment neither steals, doubles nor loses

The first pass is followed from its last request back: it says which requests
have a new hash and which of them have a free index.  The second pass then only
numbers what is left over, from behind everything that is stored.
-/

namespace Minni
namespace Daemon

open Foundation

/-!
## The first pass
-/

abbrev Placed := Placement × FillRequest

/-- The hashes that get an index. -/
def freshShas (placed : List Placed) : List String :=
  (placed.filter fun p => p.1 ≠ Placement.present).map (·.2.2)

/-- What the first pass stores. -/
def ownEntries (placed : List Placed) : Occupancy :=
  (placed.filter fun p => p.1 = Placement.own).map fun p => (p.2.1, [p.2.2])

section FirstPass

variable {occupied : Occupancy} {existing : List String}

theorem placeOwn_length (requested : List FillRequest) :
    (placeOwn occupied existing requested).1.length = requested.length := by
  induction requested generalizing occupied existing with
  | nil => rfl
  | cons request rest ih =>
      rcases request with ⟨idx, sha⟩
      rw [placeOwn]
      split
      · exact congrArg Nat.succ ih
      · split
        · exact congrArg Nat.succ ih
        · exact congrArg Nat.succ ih

/-- Every hash is taken once, unless it is there already. -/
theorem placeOwn_fresh (requested : List FillRequest) :
    (freshShas ((placeOwn occupied existing requested).1.zip requested)).Nodup ∧
      forall sha,
        sha ∈ freshShas
            ((placeOwn occupied existing requested).1.zip requested) <->
          sha ∉ existing ∧ sha ∈ requested.map (·.2) := by
  induction requested generalizing occupied existing with
  | nil => exact ⟨List.nodup_nil, fun sha => by simp [placeOwn, freshShas]⟩
  | cons request rest ih =>
      rcases request with ⟨idx, sha⟩
      rw [placeOwn]
      split
      · rename_i hpresent
        rcases @ih occupied existing with
          ⟨hnodup, hmem⟩
        constructor
        · exact hnodup
        · intro other
          have hskip : freshShas (((Placement.present ::
              (placeOwn occupied existing rest).1)).zip ((idx, sha) :: rest)) =
              freshShas ((placeOwn occupied existing rest).1.zip rest) := rfl
          rw [hskip, hmem other, List.map_cons, List.mem_cons]
          constructor
          · intro h
            exact ⟨h.left, Or.inr h.right⟩
          · intro h
            rcases h with ⟨hnew, hsame | hrest⟩
            · rw [hsame] at hnew
              exact absurd hpresent hnew
            · exact ⟨hnew, hrest⟩
      · rename_i hnew
        -- the hash is claimed whether the index is free or not
        have hclaim : forall (placement : Placement) (after : Occupancy),
            placement ≠ Placement.present ->
            (freshShas ((placement ::
                (placeOwn after (sha :: existing) rest).1).zip
                  ((idx, sha) :: rest))).Nodup ∧
              forall other,
                other ∈ freshShas ((placement ::
                    (placeOwn after (sha :: existing) rest).1).zip
                      ((idx, sha) :: rest)) <->
                  other ∉ existing ∧
                    other ∈ ((idx, sha) :: rest).map (·.2) := by
          intro placement after hplacement
          rcases @ih after (sha :: existing) with
            ⟨hnodup, hmem⟩
          have hcons : freshShas ((placement ::
              (placeOwn after (sha :: existing) rest).1).zip
                ((idx, sha) :: rest)) =
              sha :: freshShas
                ((placeOwn after (sha :: existing) rest).1.zip rest) := by
            unfold freshShas
            rw [List.zip_cons_cons, List.filter_cons_of_pos (by simpa)]
            rfl
          rw [hcons]
          constructor
          · apply List.nodup_cons.mpr
            constructor
            · intro hsha
              exact ((hmem sha).mp hsha).left List.mem_cons_self
            · exact hnodup
          · intro other
            rw [List.mem_cons, hmem other, List.mem_cons, List.map_cons,
              List.mem_cons, not_or]
            constructor
            · intro h
              rcases h with hsame | h
              · rw [hsame]
                exact ⟨hnew, Or.inl rfl⟩
              · exact ⟨h.left.right, Or.inr h.right⟩
            · intro h
              by_cases hsame : other = sha
              · exact Or.inl hsame
              · rcases h.right with heq | hrest
                · exact Or.inl heq
                · exact Or.inr ⟨⟨hsame, h.left⟩, hrest⟩
        split
        · exact hclaim Placement.own _ (by decide)
        · exact hclaim Placement.extra _ (by decide)

/-- What is stored goes behind what was, each at an index of its own. -/
theorem placeOwn_occupied (requested : List FillRequest) :
    let placed := (placeOwn occupied existing requested).1.zip requested
    (placeOwn occupied existing requested).2 = occupied ++ ownEntries placed ∧
      ((ownEntries placed).map (·.1)).Nodup ∧
      forall idx, idx ∈ (ownEntries placed).map (·.1) ->
        occupied.lookup idx = none := by
  induction requested generalizing occupied existing with
  | nil => simp [placeOwn, ownEntries]
  | cons request rest ih =>
      rcases request with ⟨idx, sha⟩
      rw [placeOwn]
      split
      · exact ih
      · split
        · rename_i hfree
          rcases @ih (Dict.set idx [sha] occupied)
            (sha :: existing) with ⟨hafter, hnodup, hnew⟩
          have hcons : ownEntries ((Placement.own :: (placeOwn
              (Dict.set idx [sha] occupied) (sha :: existing) rest).1).zip
                ((idx, sha) :: rest)) =
              (idx, [sha]) :: ownEntries ((placeOwn
                (Dict.set idx [sha] occupied) (sha :: existing) rest).1.zip
                  rest) := rfl
          dsimp only
          rw [hcons, hafter, Dict.set_of_lookup_none hfree]
          rw [Dict.set_of_lookup_none hfree] at hnodup hnew
          constructor
          · simp
          constructor
          · rw [List.map_cons, List.nodup_cons]
            constructor
            · intro hidx
              have habsent := Dict.lookup_eq_none_iff.mp (hnew idx hidx)
              exact habsent (by simp)
            · exact hnodup
          · intro other hother
            rw [List.map_cons, List.mem_cons] at hother
            rcases hother with hsame | hrest
            · rw [hsame]
              exact hfree
            · have habsent := Dict.lookup_eq_none_iff.mp (hnew other hrest)
              apply Dict.lookup_eq_none
              intro hmem
              exact habsent (by
                rw [List.map_append]
                exact List.mem_append_left _ hmem)
        · exact ih

/-- A new hash at a free index keeps the index. -/
theorem placeOwn_own
    {before rest : List FillRequest} {idx : Int} {sha : String}
    (hsha : sha ∉ existing) (hbefore : sha ∉ before.map (·.2))
    (hfree : (placeOwn occupied existing before).2.lookup idx = none) :
    (placeOwn occupied existing (before ++ (idx, sha) :: rest)).1[before.length]? =
      some Placement.own := by
  induction before generalizing occupied existing with
  | nil =>
      have hidx : occupied.lookup idx = none := hfree
      rw [List.nil_append, placeOwn, if_neg hsha, if_pos hidx]
      rfl
  | cons request before ih =>
      rcases request with ⟨other, body⟩
      rw [List.map_cons, List.mem_cons, not_or] at hbefore
      rw [List.cons_append]
      rw [placeOwn] at hfree ⊢
      split
      · rename_i hpresent
        rw [if_pos hpresent] at hfree
        exact ih hsha hbefore.right hfree
      · rename_i hnew
        rw [if_neg hnew] at hfree
        have hclaimed : sha ∉ body :: existing := by
          rw [List.mem_cons, not_or]
          exact ⟨hbefore.left, hsha⟩
        split
        · rename_i hother
          rw [if_pos hother] at hfree
          exact ih hclaimed hbefore.right hfree
        · rename_i hother
          rw [if_neg hother] at hfree
          exact ih hclaimed hbefore.right hfree

theorem placeOwn_append (before rest : List FillRequest) :
    exists existing' placed,
      placeOwn occupied existing (before ++ rest) =
        ((placeOwn occupied existing before).1 ++ placed,
          (placeOwn (placeOwn occupied existing before).2 existing' rest).2) := by
  induction before generalizing occupied existing with
  | nil => exact ⟨existing, (placeOwn occupied existing rest).1, rfl⟩
  | cons request before ih =>
      rcases request with ⟨idx, sha⟩
      rw [List.cons_append, placeOwn, placeOwn]
      split
      · rcases @ih occupied existing with
          ⟨existing', placed, h⟩
        rw [h]
        exact ⟨existing', placed, rfl⟩
      · split
        · rcases @ih (Dict.set idx [sha] occupied)
            (sha :: existing) with ⟨existing', placed, h⟩
          rw [h]
          exact ⟨existing', placed, rfl⟩
        · rcases @ih occupied (sha :: existing) with
            ⟨existing', placed, h⟩
          rw [h]
          exact ⟨existing', placed, rfl⟩

/-- Nothing is placed where every hash is there already. -/
theorem placeOwn_present {requested : List FillRequest}
    (h : forall sha, sha ∈ requested.map (·.2) -> sha ∈ existing) :
    placeOwn occupied existing requested =
      (requested.map fun _ => Placement.present, occupied) := by
  induction requested with
  | nil => rfl
  | cons request rest ih =>
      rcases request with ⟨idx, sha⟩
      rw [placeOwn, if_pos (h sha (List.mem_cons_self ..)),
        ih fun other hother => h other (List.mem_cons_of_mem _ hother)]
      rfl

/-- New hashes at free indices are all placed where they want to be. -/
theorem placeOwn_all_own
    {requested : List FillRequest}
    (hnodup : (requested.map (·.2)).Nodup)
    (hnew : forall sha, sha ∈ requested.map (·.2) -> sha ∉ existing)
    (hindices : (requested.map (·.1)).Nodup)
    (hfree : forall idx, idx ∈ requested.map (·.1) ->
      occupied.lookup idx = none) :
    (placeOwn occupied existing requested).1 =
      requested.map fun _ => Placement.own := by
  induction requested generalizing occupied existing with
  | nil => rfl
  | cons request rest ih =>
      rcases request with ⟨idx, sha⟩
      rw [List.map_cons, List.nodup_cons] at hnodup hindices
      rw [placeOwn, if_neg (hnew sha (List.mem_cons_self ..)),
        if_pos (hfree idx (List.mem_cons_self ..))]
      dsimp only
      rw [ih hnodup.right _ hindices.right]
      · rfl
      · intro other hother
        rw [Dict.lookup_set, if_neg]
        · exact hfree other (List.mem_cons_of_mem _ hother)
        · intro hsame
          rw [hsame] at hother
          exact hindices.left hother
      · intro other hother
        rw [List.mem_cons, not_or]
        constructor
        · intro hsame
          rw [hsame] at hother
          exact hnodup.left hother
        · exact hnew other (List.mem_cons_of_mem _ hother)

end FirstPass

/-!
## The second pass
-/

/-- The second pass without its look at what is stored. -/
def numberExtras (next_idx : Int) : List Placed -> List (Option Int)
  | [] => []
  | (Placement.present, _) :: rest => none :: numberExtras next_idx rest
  | (Placement.own, (idx, _)) :: rest => some idx :: numberExtras next_idx rest
  | (Placement.extra, _) :: rest =>
      some next_idx :: numberExtras (next_idx + 1) rest

def extraShas (placed : List Placed) : List String :=
  (placed.filter fun p => p.1 = Placement.extra).map (·.2.2)

theorem mem_allOccupiedShas_append {occupied more : Occupancy} {sha : String} :
    sha ∈ allOccupiedShas (occupied ++ more) <->
      sha ∈ allOccupiedShas occupied ∨ sha ∈ allOccupiedShas more := by
  unfold allOccupiedShas
  rw [List.flatMap_append, List.mem_append]

section SecondPass

variable {occupied : Occupancy} {next_idx : Int}

/-- The extras are new to what is stored, and stay so while they are stored one
by one. -/
theorem placeExtras_eq
    {placed : List Placed}
    (hnodup : (extraShas placed).Nodup)
    (hnew : forall sha, sha ∈ extraShas placed ->
      sha ∉ allOccupiedShas occupied)
    (hnext : forall idx, idx ∈ occupied.map (·.1) -> idx < next_idx) :
    (placeExtras occupied next_idx placed).1 = numberExtras next_idx placed ∧
      forall sha,
        sha ∈ allOccupiedShas (placeExtras occupied next_idx placed).2 <->
          sha ∈ allOccupiedShas occupied ∨ sha ∈ extraShas placed := by
  induction placed generalizing occupied next_idx with
  | nil => exact ⟨rfl, fun sha => by simp [placeExtras, extraShas]⟩
  | cons p rest ih =>
      rcases p with ⟨placement, idx, sha⟩
      cases placement with
      | present =>
          rcases ih hnodup hnew hnext with ⟨heq, hmem⟩
          exact ⟨congrArg (none :: ·) heq, hmem⟩
      | own =>
          rcases ih hnodup hnew hnext with ⟨heq, hmem⟩
          exact ⟨congrArg (some idx :: ·) heq, hmem⟩
      | extra =>
          have hcons : extraShas ((Placement.extra, (idx, sha)) :: rest) =
              sha :: extraShas rest := rfl
          rw [hcons] at hnodup hnew ⊢
          rw [List.nodup_cons] at hnodup
          have hsha := hnew sha (List.mem_cons_self ..)
          have hfree : occupied.lookup next_idx = none := by
            apply Dict.lookup_eq_none
            intro hmem
            exact absurd (hnext next_idx hmem) (lt_irrefl _)
          have hstored : forall other,
              other ∈ allOccupiedShas (Dict.set next_idx [sha] occupied) <->
                other ∈ allOccupiedShas occupied ∨ other = sha := by
            intro other
            rw [Dict.set_of_lookup_none hfree, mem_allOccupiedShas_append]
            simp [allOccupiedShas]
          have hnew' : forall other, other ∈ extraShas rest ->
              other ∉ allOccupiedShas (Dict.set next_idx [sha] occupied) := by
            intro other hother hmem
            rcases (hstored other).mp hmem with hthere | hsame
            · exact hnew other (List.mem_cons_of_mem _ hother) hthere
            · rw [hsame] at hother
              exact hnodup.left hother
          have hnext' : forall other,
              other ∈ (Dict.set next_idx [sha] occupied).map (·.1) ->
                other < next_idx + 1 := by
            intro other hother
            rw [Dict.set_of_lookup_none hfree, List.map_append,
              List.mem_append] at hother
            rcases hother with hold | hlast
            · exact lt_trans (hnext other hold) (Int.lt_succ _)
            · rw [List.mem_singleton.mp hlast]
              exact Int.lt_succ _
          rcases ih hnodup.right hnew' hnext' with ⟨heq, hmem⟩
          rw [placeExtras, if_neg hsha]
          constructor
          · exact congrArg (some next_idx :: ·) heq
          · intro other
            rw [hmem other, hstored other, List.mem_cons]
            tauto

theorem numberExtras_length (placed : List Placed) :
    (numberExtras next_idx placed).length = placed.length := by
  induction placed generalizing next_idx with
  | nil => rfl
  | cons p rest ih =>
      rcases p with ⟨placement, idx, sha⟩
      cases placement with
      | present => exact congrArg Nat.succ ih
      | own => exact congrArg Nat.succ ih
      | extra => exact congrArg Nat.succ ih

theorem numberExtras_own {placed : List Placed} {i : Nat} {idx : Int}
    {sha : String} (h : placed[i]? = some (Placement.own, (idx, sha))) :
    (numberExtras next_idx placed)[i]? = some (some idx) := by
  induction placed generalizing next_idx i with
  | nil => cases h
  | cons p rest ih =>
      cases i with
      | zero =>
          have hp : p = (Placement.own, (idx, sha)) := Option.some.inj h
          rw [hp]
          rfl
      | succ i =>
          rcases p with ⟨placement, other, body⟩
          cases placement with
          | present => exact ih h
          | own => exact ih h
          | extra => exact ih h

/-- What is assigned is an own index, or comes from behind. -/
theorem numberExtras_mem {placed : List Placed} {idx : Int}
    (h : some idx ∈ numberExtras next_idx placed) :
    idx ∈ (ownEntries placed).map (·.1) ∨ next_idx ≤ idx := by
  induction placed generalizing next_idx with
  | nil => cases h
  | cons p rest ih =>
      rcases p with ⟨placement, other, sha⟩
      cases placement with
      | present =>
          rcases List.mem_cons.mp h with hnone | hrest
          · cases hnone
          · exact ih hrest
      | own =>
          have hcons : (ownEntries ((Placement.own, (other, sha)) :: rest)).map
              (·.1) = other :: (ownEntries rest).map (·.1) := rfl
          rw [hcons, List.mem_cons]
          rcases List.mem_cons.mp h with hsame | hrest
          · exact Or.inl (Or.inl (Option.some.inj hsame))
          · rcases ih hrest with hown | hnext
            · exact Or.inl (Or.inr hown)
            · exact Or.inr hnext
      | extra =>
          rcases List.mem_cons.mp h with hsame | hrest
          · exact Or.inr (le_of_eq (Option.some.inj hsame).symm)
          · rcases ih hrest with hown | hnext
            · exact Or.inl hown
            · exact Or.inr (le_trans (le_of_lt (Int.lt_succ _)) hnext)

theorem numberExtras_nodup {placed : List Placed}
    (hnodup : ((ownEntries placed).map (·.1)).Nodup)
    (hnext : forall idx, idx ∈ (ownEntries placed).map (·.1) ->
      idx < next_idx) :
    ((numberExtras next_idx placed).filterMap id).Nodup := by
  induction placed generalizing next_idx with
  | nil => exact List.nodup_nil
  | cons p rest ih =>
      rcases p with ⟨placement, idx, sha⟩
      cases placement with
      | present => exact ih hnodup hnext
      | own =>
          have hcons : (ownEntries ((Placement.own, (idx, sha)) :: rest)).map
              (·.1) = idx :: (ownEntries rest).map (·.1) := rfl
          rw [hcons] at hnodup hnext
          rw [List.nodup_cons] at hnodup
          show (idx :: (numberExtras next_idx rest).filterMap id).Nodup
          rw [List.nodup_cons]
          constructor
          · intro hmem
            rcases List.mem_filterMap.mp hmem with ⟨found, hfound, heq⟩
            have hsome : found = some idx := heq
            rw [hsome] at hfound
            rcases numberExtras_mem hfound with hown | hlate
            · exact hnodup.left hown
            · exact absurd (hnext idx (List.mem_cons_self ..))
                (not_lt.mpr hlate)
          · exact ih hnodup.right fun other hother =>
              hnext other (List.mem_cons_of_mem _ hother)
      | extra =>
          show (next_idx :: (numberExtras (next_idx + 1) rest).filterMap
            id).Nodup
          rw [List.nodup_cons]
          constructor
          · intro hmem
            rcases List.mem_filterMap.mp hmem with ⟨found, hfound, heq⟩
            have hsome : found = some next_idx := heq
            rw [hsome] at hfound
            rcases numberExtras_mem hfound with hown | hlate
            · exact absurd (hnext next_idx hown) (lt_irrefl _)
            · exact absurd (Int.lt_succ next_idx) (not_lt.mpr hlate)
          · exact ih hnodup fun other hother =>
              lt_trans (hnext other hother) (Int.lt_succ _)

/-- The requests that have an index are those with a new hash. -/
theorem numberExtras_shas (placed : List Placed) :
    (((placed.map (·.2)).zip (numberExtras next_idx placed)).filter
      (·.2.isSome)).map (·.1.2) = freshShas placed := by
  induction placed generalizing next_idx with
  | nil => rfl
  | cons p rest ih =>
      rcases p with ⟨placement, idx, body⟩
      cases placement with
      | present => exact ih
      | own => exact congrArg (body :: ·) ih
      | extra => exact congrArg (body :: ·) ih

end SecondPass

theorem le_foldl_max (first : Int) (rest : List Int) :
    first ≤ rest.foldl max first ∧
      forall idx, idx ∈ rest -> idx ≤ rest.foldl max first := by
  induction rest generalizing first with
  | nil => exact ⟨le_refl _, fun idx h => absurd h List.not_mem_nil⟩
  | cons other rest ih =>
      rcases ih (max first other) with ⟨hfirst, hrest⟩
      constructor
      · exact le_trans (le_max_left _ _) hfirst
      · intro idx hidx
        rcases List.mem_cons.mp hidx with hsame | hmem
        · rw [hsame]
          exact le_trans (le_max_right _ _) hfirst
        · exact hrest idx hmem

theorem lt_next {occupied : Occupancy} {idx : Int}
    (h : idx ∈ occupied.map (·.1)) :
    idx < maxIndex occupied + 1 := by
  unfold maxIndex
  cases hkeys : occupied.map (·.1) with
  | nil =>
      rw [hkeys] at h
      cases h
  | cons first rest =>
      rw [hkeys] at h
      apply Int.lt_add_one_of_le
      rcases List.mem_cons.mp h with hsame | hmem
      · rw [hsame]
        exact (le_foldl_max first rest).left
      · exact (le_foldl_max first rest).right idx hmem

/-!
## Both passes
-/

section Assignment

variable (occupied : Occupancy) (requested : List FillRequest)

def placedOf : List Placed :=
  (placeOwn occupied (allOccupiedShas occupied) requested).1.zip requested

/-- The occupancy between the passes. -/
def placedAfter : Occupancy :=
  (placeOwn occupied (allOccupiedShas occupied) requested).2

theorem placedOf_requests :
    (placedOf occupied requested).map (·.2) = requested := by
  unfold placedOf
  apply List.map_snd_zip
  rw [placeOwn_length]

theorem placedAfter_eq :
    placedAfter occupied requested =
      occupied ++ ownEntries (placedOf occupied requested) :=
  (placeOwn_occupied requested).left

theorem mem_shas_of_placement {placed : List Placed} {sha : String} :
    sha ∈ freshShas placed <->
      sha ∈ allOccupiedShas (ownEntries placed) ∨ sha ∈ extraShas placed := by
  induction placed with
  | nil => simp [freshShas, ownEntries, allOccupiedShas, extraShas]
  | cons p rest ih =>
      rcases p with ⟨placement, idx, body⟩
      cases placement with
      | present => exact ih
      | own =>
          show sha ∈ body :: freshShas rest <->
            sha ∈ body :: allOccupiedShas (ownEntries rest) ∨
              sha ∈ extraShas rest
          rw [List.mem_cons, List.mem_cons, ih, or_assoc]
      | extra =>
          show sha ∈ body :: freshShas rest <->
            sha ∈ allOccupiedShas (ownEntries rest) ∨
              sha ∈ body :: extraShas rest
          rw [List.mem_cons, List.mem_cons, ih, or_left_comm]

/-- A hash that is new is placed once: as its own entry or as an extra. -/
theorem extraShas_of_fresh {placed : List Placed}
    (h : (freshShas placed).Nodup) :
    (extraShas placed).Nodup ∧
      forall sha, sha ∈ extraShas placed ->
        sha ∉ allOccupiedShas (ownEntries placed) := by
  induction placed with
  | nil => exact ⟨List.nodup_nil, fun sha hsha => absurd hsha List.not_mem_nil⟩
  | cons p rest ih =>
      rcases p with ⟨placement, idx, body⟩
      cases placement with
      | present => exact ih h
      | own =>
          have hcons : (body :: freshShas rest).Nodup := h
          rw [List.nodup_cons] at hcons
          rcases ih hcons.right with ⟨hnodup, hapart⟩
          constructor
          · exact hnodup
          · intro sha hsha hmem
            have hsplit : sha ∈ body :: allOccupiedShas (ownEntries rest) := hmem
            rcases List.mem_cons.mp hsplit with hsame | hrest
            · rw [hsame] at hsha
              exact hcons.left (mem_shas_of_placement.mpr (Or.inr hsha))
            · exact hapart sha hsha hrest
      | extra =>
          have hcons : (body :: freshShas rest).Nodup := h
          rw [List.nodup_cons] at hcons
          rcases ih hcons.right with ⟨hnodup, hapart⟩
          constructor
          · show (body :: extraShas rest).Nodup
            rw [List.nodup_cons]
            constructor
            · intro hbody
              exact hcons.left (mem_shas_of_placement.mpr (Or.inr hbody))
            · exact hnodup
          · intro sha hsha hmem
            have hsplit : sha ∈ body :: extraShas rest := hsha
            rcases List.mem_cons.mp hsplit with hsame | hrest
            · rw [hsame] at hmem
              exact hcons.left (mem_shas_of_placement.mpr (Or.inl hmem))
            · exact hapart sha hrest hmem

theorem freshShas_placedOf :
    (freshShas (placedOf occupied requested)).Nodup ∧
      forall sha, sha ∈ freshShas (placedOf occupied requested) <->
        sha ∉ allOccupiedShas occupied ∧ sha ∈ requested.map (·.2) :=
  placeOwn_fresh requested

/-- Both passes together: the placed requests are numbered, and every requested
hash is stored afterwards. -/
theorem assignFillIndices_eq :
    (assignFillIndices occupied requested).1 =
        numberExtras (maxIndex (placedAfter occupied requested) + 1)
          (placedOf occupied requested) ∧
      forall sha, sha ∈ requested.map (·.2) ->
        sha ∈ allOccupiedShas (assignFillIndices occupied requested).2 := by
  rcases freshShas_placedOf occupied requested with ⟨hfresh, hmem⟩
  rcases extraShas_of_fresh hfresh with ⟨hnodup, hapart⟩
  have hnew : forall sha, sha ∈ extraShas (placedOf occupied requested) ->
      sha ∉ allOccupiedShas (placedAfter occupied requested) := by
    intro sha hsha hstored
    rw [placedAfter_eq, mem_allOccupiedShas_append] at hstored
    rcases hstored with hold | hown
    · exact ((hmem sha).mp (mem_shas_of_placement.mpr (Or.inr hsha))).left hold
    · exact hapart sha hsha hown
  rcases placeExtras_eq hnodup hnew (fun idx => lt_next) with ⟨heq, hstored⟩
  constructor
  · exact heq
  · intro sha hsha
    apply (hstored sha).mpr
    rw [placedAfter_eq, mem_allOccupiedShas_append]
    by_cases hold : sha ∈ allOccupiedShas occupied
    · exact Or.inl (Or.inl hold)
    · rcases mem_shas_of_placement.mp ((hmem sha).mpr ⟨hold, hsha⟩) with
        hown | hextra
      · exact Or.inl (Or.inr hown)
      · exact Or.inr hextra

end Assignment

/-- The requests of each hash that is not stored yet have one index between
them; no index is taken away or given twice; a request with a new hash keeps
its index where that is free; and what was assigned is not assigned again. -/
structure AssignsSlots (occupied : Occupancy) (requested : List FillRequest) :
    Prop where
  one_each : forall sha, sha ∉ allOccupiedShas occupied ->
    sha ∈ requested.map (·.2) ->
    (requested.zip (assignFillIndices occupied requested).1).countP
      (fun p => p.1.2 = sha && p.2.isSome) = 1
  free : forall idx, some idx ∈ (assignFillIndices occupied requested).1 ->
    occupied.lookup idx = none
  distinct :
    ((assignFillIndices occupied requested).1.filterMap id).Nodup
  own : forall before idx sha rest,
    requested = before ++ (idx, sha) :: rest ->
    occupied.lookup idx = none ->
    some idx ∉ (assignFillIndices occupied requested).1.take before.length ->
    sha ∉ allOccupiedShas occupied -> sha ∉ before.map (·.2) ->
    (assignFillIndices occupied requested).1[before.length]? = some (some idx)
  again :
    (assignFillIndices (assignFillIndices occupied requested).2 requested).1 =
      requested.map fun _ => none

theorem assignFillIndices_none {occupied : Occupancy}
    {requested : List FillRequest}
    (h : forall sha, sha ∈ requested.map (·.2) ->
      sha ∈ allOccupiedShas occupied) :
    (assignFillIndices occupied requested).1 =
      requested.map fun _ => none := by
  rw [(assignFillIndices_eq occupied requested).left, placedOf,
    placeOwn_present h]
  dsimp only
  generalize maxIndex (placedAfter occupied requested) + 1 = next_idx
  clear h
  induction requested with
  | nil => rfl
  | cons request rest ih => exact congrArg (none :: ·) ih

theorem assignFillIndices_free {occupied : Occupancy}
    {requested : List FillRequest} {idx : Int}
    (h : some idx ∈ (assignFillIndices occupied requested).1) :
    occupied.lookup idx = none := by
  rw [(assignFillIndices_eq occupied requested).left] at h
  rcases numberExtras_mem h with hown | hlate
  · exact (placeOwn_occupied requested).right.right idx hown
  · apply Dict.lookup_eq_none
    intro hmem
    have hafter : idx ∈ (placedAfter occupied requested).map (·.1) := by
      rw [placedAfter_eq, List.map_append]
      exact List.mem_append_left _ hmem
    exact absurd (lt_next hafter) (not_lt.mpr hlate)

theorem assignFillIndices_distinct (occupied : Occupancy)
    (requested : List FillRequest) :
    ((assignFillIndices occupied requested).1.filterMap id).Nodup := by
  rw [(assignFillIndices_eq occupied requested).left]
  apply numberExtras_nodup
  · exact (placeOwn_occupied requested).right.left
  · intro idx hidx
    apply lt_next
    rw [placedAfter_eq, List.map_append]
    exact List.mem_append_right _ hidx

/-- An index that the first pass has given away is among what was assigned. -/
theorem mem_take_of_own
    {occupied : Occupancy} {before rest : List FillRequest} {idx : Int}
    (h : idx ∈ (ownEntries (placedOf occupied before)).map (·.1)) :
    some idx ∈
      (assignFillIndices occupied (before ++ rest)).1.take before.length := by
  rcases List.mem_map.mp h with ⟨entry, hentry, hidx⟩
  rcases List.mem_map.mp hentry with ⟨p, hp, heq⟩
  rw [List.mem_filter, decide_eq_true_iff] at hp
  rcases List.getElem?_of_mem hp.left with ⟨j, hj⟩
  have hlength : (placedOf occupied before).length = before.length := by
    unfold placedOf
    rw [List.length_zip, placeOwn_length, min_self]
  have hlt : j < before.length := by
    rw [← hlength]
    exact (List.getElem?_eq_some_iff.mp hj).1
  rcases @placeOwn_append occupied (allOccupiedShas occupied)
    before rest with
    ⟨existing', placed, happend⟩
  have hplaced : placedOf occupied (before ++ rest) =
      placedOf occupied before ++ placed.zip rest := by
    unfold placedOf
    rw [happend, List.zip_append (placeOwn_length before)]
  have hwhole : (placedOf occupied (before ++ rest))[j]? =
      some (Placement.own, (idx, p.2.2)) := by
    rw [hplaced, List.getElem?_append_left (by rw [hlength]; exact hlt), hj]
    have hfst : p.2.1 = idx := by
      rw [← hidx, ← heq]
    rw [← hp.right, ← hfst]
  have hassigned := @numberExtras_own
    (maxIndex (placedAfter occupied (before ++ rest)) + 1) _ _ _ _ hwhole
  rw [← (assignFillIndices_eq occupied (before ++ rest)).left] at hassigned
  apply List.mem_of_getElem? (i := j)
  rw [List.getElem?_take_of_lt hlt]
  exact hassigned

theorem assignFillIndices_own {occupied : Occupancy}
    {before rest : List FillRequest} {idx : Int} {sha : String}
    (hfree : occupied.lookup idx = none)
    (htaken : some idx ∉ (assignFillIndices occupied
      (before ++ (idx, sha) :: rest)).1.take before.length)
    (hnew : sha ∉ allOccupiedShas occupied)
    (hbefore : sha ∉ before.map (·.2)) :
    (assignFillIndices occupied (before ++ (idx, sha) :: rest)).1[
      before.length]? = some (some idx) := by
  have hstill : (placeOwn occupied (allOccupiedShas occupied) before).2.lookup
      idx = none := by
    rw [(placeOwn_occupied before).left]
    apply Dict.lookup_eq_none
    rw [List.map_append, List.mem_append]
    intro hmem
    rcases hmem with hold | hown
    · exact Dict.lookup_eq_none_iff.mp hfree hold
    · exact htaken (mem_take_of_own hown)
  have hplaced : (placedOf occupied (before ++ (idx, sha) :: rest))[
      before.length]? = some (Placement.own, (idx, sha)) := by
    unfold placedOf
    rw [List.getElem?_zip_eq_some]
    constructor
    · exact placeOwn_own hnew hbefore hstill
    · simp
  rw [(assignFillIndices_eq occupied _).left]
  exact numberExtras_own hplaced

/-- The hashes that an assignment stores. -/
theorem assigned_shas (occupied : Occupancy) (requested : List FillRequest) :
    ((requested.zip (assignFillIndices occupied requested).1).filter
      (·.2.isSome)).map (·.1.2) =
      freshShas (placedOf occupied requested) := by
  rw [(assignFillIndices_eq occupied requested).left]
  have hshas := @numberExtras_shas
    (maxIndex (placedAfter occupied requested) + 1)
    (placedOf occupied requested)
  rw [placedOf_requests] at hshas
  exact hshas

theorem assignsSlots (occupied : Occupancy) (requested : List FillRequest) :
    AssignsSlots occupied requested where
  one_each := by
    intro sha hnew hmem
    rcases freshShas_placedOf occupied requested with ⟨hnodup, hfresh⟩
    have hcount := List.count_eq_one_of_mem hnodup
      ((hfresh sha).mpr ⟨hnew, hmem⟩)
    rw [← assigned_shas, List.count, List.countP_map, List.countP_filter]
      at hcount
    rw [← hcount]
    apply List.countP_congr
    intro p _
    simp
  free := fun idx h => assignFillIndices_free h
  distinct := assignFillIndices_distinct occupied requested
  own := by
    intro before idx sha rest hsplit hfree htaken hnew hbefore
    rw [hsplit] at htaken ⊢
    exact assignFillIndices_own hfree htaken hnew hbefore
  again := assignFillIndices_none (assignFillIndices_eq occupied requested).right

end Daemon
end Minni
