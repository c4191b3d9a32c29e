import Minni.Foundation.JsonRoundTrip

/-!
# The stable printer

The stable printer visits the keys of an object in order, so its text says what
each field of an object holds, whatever the order in which the object was made.
-/

namespace Minni
namespace Foundation
namespace Json

def definedField (entry : String × Option Json) : Option (String × Json) :=
  entry.2.map fun v => (entry.1, v)

/-- An object as the host makes it: a field without a value is left out when it
is printed. -/
def object (entries : List (String × Option Json)) : Json :=
  Json.obj (entries.filterMap definedField)

def strings (xs : List String) : Json :=
  Json.arr (xs.map Json.str)

/-!
## Fields
-/

theorem lookup_eq_some_iff
    {α : Type} {fields : List (String × α)} {name : String} {v : α}
    (h : (fields.map Prod.fst).Nodup) :
    fields.lookup name = some v <-> (name, v) ∈ fields := by
  induction fields with
  | nil =>
      simp
  | cons field rest ih =>
      rcases field with ⟨other, w⟩
      rw [List.map_cons, List.nodup_cons] at h
      rw [List.lookup_cons]
      by_cases hname : name = other
      · subst hname
        simp only [beq_self_eq_true]
        constructor
        · intro hw
          rw [Option.some.inj hw]
          exact List.mem_cons_self ..
        · intro hmem
          rcases List.mem_cons.mp hmem with hhead | htail
          · rw [(Prod.mk.inj hhead).right]
          · exact absurd (List.mem_map.mpr ⟨_, htail, rfl⟩) h.left
      · have hne : (name == other) = false := by simpa using hname
        rw [hne, ih h.right, List.mem_cons]
        constructor
        · intro hmem
          exact Or.inr hmem
        · intro hmem
          rcases hmem with hhead | htail
          · exact absurd (Prod.mk.inj hhead).left hname
          · exact htail

theorem lookup_perm
    {α : Type} {fields fields' : List (String × α)} {name : String}
    (hperm : fields'.Perm fields) (h : (fields.map Prod.fst).Nodup) :
    fields'.lookup name = fields.lookup name := by
  have h' : (fields'.map Prod.fst).Nodup :=
    (hperm.map Prod.fst).nodup_iff.mpr h
  apply Option.ext
  intro v
  rw [lookup_eq_some_iff h', lookup_eq_some_iff h]
  exact hperm.mem_iff

theorem lookup_filterMap
    {entries : List (String × Option Json)} {name : String} :
    (entries.map Prod.fst).Nodup ->
    (entries.filterMap definedField).lookup name =
      (entries.lookup name).join := by
  induction entries with
  | nil =>
      intro _
      rfl
  | cons entry rest ih =>
      intro h
      rcases entry with ⟨other, value⟩
      rw [List.map_cons, List.nodup_cons] at h
      rw [List.lookup_cons]
      cases value with
      | none =>
          rw [List.filterMap_cons_none (f := definedField) rfl, ih h.right]
          by_cases hname : name = other
          · have hfresh : rest.lookup name = none := by
              rw [List.lookup_eq_none_iff]
              intro other' hmem
              simp only [bne_iff_ne, ne_eq, hname]
              intro hsame
              apply h.left
              rw [hsame]
              exact List.mem_map.mpr ⟨other', hmem, rfl⟩
            rw [hfresh]
            simp [hname]
          · have hne : (name == other) = false := by simpa using hname
            rw [hne]
      | some v =>
          rw [List.filterMap_cons_some (f := definedField) rfl, List.lookup_cons]
          by_cases hname : name = other
          · simp [hname]
          · have hne : (name == other) = false := by simpa using hname
            rw [hne]
            exact ih h.right

theorem map_fst_filterMap_sublist (entries : List (String × Option Json)) :
    ((entries.filterMap definedField).map Prod.fst).Sublist
      (entries.map Prod.fst) := by
  induction entries with
  | nil =>
      exact List.Sublist.refl _
  | cons entry rest ih =>
      rcases entry with ⟨name, value⟩
      cases value with
      | none =>
          rw [List.filterMap_cons_none (f := definedField) rfl]
          exact List.Sublist.cons _ ih
      | some v =>
          rw [List.filterMap_cons_some (f := definedField) rfl]
          exact List.Sublist.cons_cons _ ih

/-!
## Sorted keys
-/

theorem sortItems_eq (items : List Json) :
    sortItems items = items.map sortKeys := by
  induction items with
  | nil => rfl
  | cons item rest ih =>
      rw [List.map_cons, <- ih]
      rfl

theorem sortFields_eq (fields : List (String × Json)) :
    sortFields fields = fields.map fun f => (f.1, sortKeys f.2) := by
  induction fields with
  | nil => rfl
  | cons field rest ih =>
      rcases field with ⟨name, v⟩
      rw [List.map_cons, <- ih]
      rfl

theorem map_fst_sortFields (fields : List (String × Json)) :
    (sortFields fields).map Prod.fst = fields.map Prod.fst := by
  rw [sortFields_eq, List.map_map]
  rfl

theorem lookup_sortFields (fields : List (String × Json)) (name : String) :
    (sortFields fields).lookup name = (fields.lookup name).map sortKeys := by
  induction fields with
  | nil => rfl
  | cons field rest ih =>
      rcases field with ⟨other, v⟩
      show List.lookup name ((other, sortKeys v) :: sortFields rest) = _
      rw [List.lookup_cons, List.lookup_cons]
      cases name == other with
      | true => rfl
      | false => exact ih

/-- What a field of an object becomes. -/
theorem field?_sortKeys_object
    {entries : List (String × Option Json)} (name : String)
    (h : (entries.map Prod.fst).Nodup) :
    (sortKeys (object entries)).field? name =
      ((entries.lookup name).join).map sortKeys := by
  have hnodup := (map_fst_filterMap_sublist entries).nodup h
  show List.lookup name (List.insertionSort _ (sortFields _)) = _
  rw [lookup_perm (List.perm_insertionSort _ _)
      (by rw [map_fst_sortFields]; exact hnodup),
    lookup_sortFields, lookup_filterMap h]

theorem printableFields_iff (fields : List (String × Json)) :
    PrintableFields fields <->
      forall f, f ∈ fields -> Printable f.2 := by
  induction fields with
  | nil =>
      exact ⟨fun _ _ h => (List.not_mem_nil h).elim, fun _ => True.intro⟩
  | cons field rest ih =>
      show Printable field.2 ∧ PrintableFields rest <-> _
      rw [ih, List.forall_mem_cons]

theorem printableItems_iff (items : List Json) :
    PrintableItems items <-> forall v, v ∈ items -> Printable v := by
  induction items with
  | nil =>
      exact ⟨fun _ _ h => (List.not_mem_nil h).elim, fun _ => True.intro⟩
  | cons item rest ih =>
      show Printable item ∧ PrintableItems rest <-> _
      rw [ih, List.forall_mem_cons]

mutual

theorem printable_sortKeys : (v : Json) -> Printable v -> Printable (sortKeys v)
  | Json.null, h => h
  | Json.bool _, h => h
  | Json.num _, h => h
  | Json.str _, h => h
  | Json.arr items, h => printable_sortItems items h
  | Json.obj fields, h => by
      have hperm := List.perm_insertionSort (fun a b => a.1 ≤ b.1)
        (sortFields fields)
      have hfields := printable_sortFields fields h.right
      constructor
      · rw [(hperm.map Prod.fst).nodup_iff, map_fst_sortFields]
        exact h.left
      · rw [printableFields_iff] at hfields ⊢
        intro f hf
        exact hfields f (hperm.mem_iff.mp hf)

theorem printable_sortItems :
    (items : List Json) -> PrintableItems items ->
      PrintableItems (sortItems items)
  | [], h => h
  | item :: rest, h =>
      ⟨printable_sortKeys item h.left, printable_sortItems rest h.right⟩

theorem printable_sortFields :
    (fields : List (String × Json)) -> PrintableFields fields ->
      PrintableFields (sortFields fields)
  | [], h => h
  | (_, v) :: rest, h =>
      ⟨printable_sortKeys v h.left, printable_sortFields rest h.right⟩

end

/-- The stable text determines the value up to the order of keys. -/
theorem stableStringify_injective
    {v w : Json} (hv : Printable v) (hw : Printable w)
    (h : stableStringify v = stableStringify w) :
    sortKeys v = sortKeys w :=
  stringify_injective (printable_sortKeys v hv) (printable_sortKeys w hw) h

/-!
## Printable objects
-/

def PrintableOption (value : Option Json) : Prop :=
  forall v, value = some v -> Printable v

@[simp] theorem printable_str (s : String) : Printable (Json.str s) :=
  True.intro

@[simp] theorem printable_int (n : Int) : Printable (Json.int n) :=
  printableNumber_int n

@[simp] theorem printableOption_some (v : Json) :
    PrintableOption (some v) <-> Printable v := by
  constructor
  · intro h
    exact h v rfl
  · intro h w hw
    rw [<- Option.some.inj hw]
    exact h

@[simp] theorem printableOption_map
    {α : Type} {f : α -> Json} (value : Option α)
    (h : forall a, Printable (f a)) :
    PrintableOption (value.map f) := by
  intro v hv
  rcases Option.map_eq_some_iff.mp hv with ⟨a, _, rfl⟩
  exact h a

theorem printable_object
    {entries : List (String × Option Json)}
    (hkeys : (entries.map Prod.fst).Nodup)
    (h : forall entry, entry ∈ entries -> PrintableOption entry.2) :
    Printable (object entries) := by
  constructor
  · exact (map_fst_filterMap_sublist entries).nodup hkeys
  · rw [printableFields_iff]
    intro f hf
    rcases List.mem_filterMap.mp hf with ⟨entry, hentry, hvalue⟩
    rcases Option.map_eq_some_iff.mp hvalue with ⟨v, hv, rfl⟩
    exact h entry hentry v hv

theorem printable_arr
    {items : List Json} (h : forall v, v ∈ items -> Printable v) :
    Printable (Json.arr items) :=
  (printableItems_iff items).mpr h

theorem printable_arr_map
    {α : Type} {f : α -> Json} (xs : List α) (h : forall a, Printable (f a)) :
    Printable (Json.arr (xs.map f)) := by
  apply printable_arr
  intro v hv
  rcases List.mem_map.mp hv with ⟨a, _, rfl⟩
  exact h a

@[simp] theorem printable_strings (xs : List String) :
    Printable (strings xs) :=
  printable_arr_map xs printable_str

/-!
## What equal objects agree on
-/

theorem object_field_eq
    {entries entries' : List (String × Option Json)}
    (h : sortKeys (object entries) = sortKeys (object entries'))
    (hkeys : (entries.map Prod.fst).Nodup)
    (hkeys' : (entries'.map Prod.fst).Nodup) (name : String) :
    ((entries.lookup name).join).map sortKeys =
      ((entries'.lookup name).join).map sortKeys := by
  rw [<- field?_sortKeys_object name hkeys,
    <- field?_sortKeys_object name hkeys', h]

theorem arr_map_eq
    {α β : Type} {f f' : α -> Json} {g : α -> β} {xs ys : List α}
    (hf : forall a b, sortKeys (f a) = sortKeys (f' b) -> g a = g b)
    (h : sortKeys (Json.arr (xs.map f)) = sortKeys (Json.arr (ys.map f'))) :
    xs.map g = ys.map g := by
  have hitems := Json.arr.inj h
  rw [sortItems_eq, sortItems_eq, List.map_map, List.map_map] at hitems
  induction xs generalizing ys with
  | nil =>
      cases ys with
      | nil => rfl
      | cons y ys => cases hitems
  | cons x xs ih =>
      cases ys with
      | nil => cases hitems
      | cons y ys =>
          rw [List.map_cons, List.map_cons] at hitems ⊢
          rcases List.cons.inj hitems with ⟨hhead, htail⟩
          have hlist : sortKeys (Json.arr (xs.map f)) =
              sortKeys (Json.arr (ys.map f')) := by
            show Json.arr (sortItems _) = Json.arr (sortItems _)
            rw [sortItems_eq, sortItems_eq, List.map_map, List.map_map, htail]
          rw [hf x y hhead, ih hlist htail]

theorem strings_injective
    {xs ys : List String} (h : sortKeys (strings xs) = sortKeys (strings ys)) :
    xs = ys := by
  have hmap : xs.map id = ys.map id := by
    refine arr_map_eq ?_ h
    intro x y hxy
    exact Json.str.inj hxy
  rw [List.map_id, List.map_id] at hmap
  exact hmap

end Json
end Foundation
end Minni
