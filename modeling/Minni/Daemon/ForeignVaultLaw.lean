import Minni.Daemon.ForeignVault

/-!
# Skipping a vault

Skipping a vault hides nothing exactly where a fresh answer is still right, or
where the look finds a readable row if there is one at all.
-/

namespace Minni
namespace Daemon

open Foundation

section Law

variable {host : ReadHost} {p : EffectivePrincipal} {vault : ForeignVault}
  {now : Nat} {sqlFails : Bool}

/-- No row of the vault passes the gate. -/
def NoneReadable (host : ReadHost) (p : EffectivePrincipal)
    (vault : ForeignVault) : Prop :=
  forall row, row ∈ vault.documents -> mayRead host p row = false

/-- The rows that the look is at. -/
def lookedAt (host : ReadHost) (p : EffectivePrincipal)
    (vault : ForeignVault) : List VaultRow :=
  if !rootAllowed host p vault then
    (vault.documents.find? (ownRow p)).toList
  else if allowsCrossAgentRecall p then vault.documents
  else vault.documents.filter (selectedRow p)

/-- A look that answers no has seen no readable row. -/
theorem lookAnswer_false (h : lookAnswer host p vault = false) {row : VaultRow}
    (hrow : row ∈ lookedAt host p vault) : mayRead host p row = false := by
  unfold lookAnswer at h
  unfold lookedAt at hrow
  split at h
  · rename_i hroot
    rw [if_pos hroot] at hrow
    rw [Option.mem_toList.mp hrow] at h
    exact h
  · rename_i hroot
    rw [if_neg hroot] at hrow
    split at h
    · rename_i hcross
      rw [if_pos hcross] at hrow
      have hempty : vault.documents = [] := by simpa using h
      rw [hempty] at hrow
      cases hrow
    · rename_i hcross
      rw [if_neg hcross] at hrow
      exact Bool.not_eq_true _ ▸ List.any_eq_false.mp h row hrow

/-- A look that sees a readable row answers yes. -/
theorem lookAnswer_true {row : VaultRow} (hrow : row ∈ lookedAt host p vault)
    (hread : mayRead host p row = true) : lookAnswer host p vault = true := by
  cases hanswer : lookAnswer host p vault with
  | true => rfl
  | false =>
      rw [lookAnswer_false hanswer hrow] at hread
      cases hread

/-- A look that answers yes has seen a readable row, or has seen all. -/
theorem lookAnswer_seen (h : lookAnswer host p vault = true) :
    (exists row, row ∈ lookedAt host p vault ∧
      mayRead host p row = true) ∨
        lookedAt host p vault = vault.documents := by
  unfold lookAnswer at h
  unfold lookedAt
  split at h
  · rename_i hroot
    rw [if_pos hroot]
    cases hfind : vault.documents.find? (ownRow p) with
    | none =>
        rw [hfind] at h
        cases h
    | some row =>
        rw [hfind] at h
        exact Or.inl ⟨row, Option.mem_toList.mpr rfl, h⟩
  · rename_i hroot
    rw [if_neg hroot]
    split at h
    · rename_i hcross
      rw [if_pos hcross]
      exact Or.inr rfl
    · rename_i hcross
      rw [if_neg hcross]
      rcases List.any_eq_true.mp h with ⟨row, hrow, hread⟩
      exact Or.inl ⟨row, hrow, hread⟩

/-- Where skipping the vault hides nothing: the answer is kept and still
right, or the look is at a readable row if the vault has one. -/
def LooksWell (host : ReadHost) (p : EffectivePrincipal)
    (vault : ForeignVault) (now : Nat) (sqlFails : Bool) : Prop :=
  match freshAnswer host p vault now with
  | some answer => answer = true ∨ NoneReadable host p vault
  | none =>
      sqlFails = true ∨
        (exists row, row ∈ lookedAt host p vault ∧
          mayRead host p row = true) ∨
        forall row, row ∈ vault.documents -> row ∉ lookedAt host p vault ->
          mayRead host p row = false

/-- The vault is asked without a look. -/
def AskedAnyway (p : EffectivePrincipal) (vault : ForeignVault) : Prop :=
  vault.source_agent = "" ∨ vault.source_agent = p.agent_id ∨
    vault.plainEngine = false

theorem hides_nothing_iff_looks_well (hlook : ¬ AskedAnyway p vault) :
    ((shouldQueryForeignVault host (some p) vault now sqlFails).1 = false ->
      NoneReadable host p vault) <->
        LooksWell host p vault now sqlFails := by
  have hagent : ¬ (vault.source_agent = "" ∨
      vault.source_agent = p.agent_id) := by
    rintro (hempty | hown)
    · exact hlook (Or.inl hempty)
    · exact hlook (Or.inr (Or.inl hown))
  have hplain : ¬ (!vault.plainEngine) = true := by
    intro h
    exact hlook (Or.inr (Or.inr (by simpa using h)))
  unfold shouldQueryForeignVault LooksWell
  dsimp only
  rw [if_neg hagent, if_neg hplain]
  cases hfresh : freshAnswer host p vault now with
  | some answer =>
      dsimp only
      cases answer with
      | true => simp
      | false => simp
  | none =>
      dsimp only
      cases sqlFails with
      | true => simp
      | false =>
          rw [if_neg Bool.false_ne_true]
          dsimp only
          constructor
          · intro h
            apply Or.inr
            cases hanswer : lookAnswer host p vault with
            | false =>
                exact Or.inr fun row hrow _ => h hanswer row hrow
            | true =>
                rcases lookAnswer_seen hanswer with hsome | hall
                · exact Or.inl hsome
                · apply Or.inr
                  rw [hall]
                  exact fun row hrow hnot => absurd hrow hnot
          · rintro (hbad | ⟨row, hrow, hread⟩ | hrest) hanswer
            · cases hbad
            · rw [lookAnswer_true hrow hread] at hanswer
              cases hanswer
            · intro row hrow
              by_cases hseen : row ∈ lookedAt host p vault
              · exact lookAnswer_false hanswer hseen
              · exact hrest row hrow hseen

/-- Skipping a vault hides nothing, for a caller and its workspace. -/
def HidesNothing (host : ReadHost) (principal : Option EffectivePrincipal)
    (vault : ForeignVault) (now : Nat) (sqlFails : Bool) : Prop :=
  (shouldQueryForeignVault host principal vault now sqlFails).1 = false ->
    forall row, row ∈ vault.documents -> forall p, principal = some p ->
      canReadDocument host (some p) p.workspace_id row.toDict = false

theorem workspaceRefuses_searchWorkspace (doc : Json) :
    workspaceRefuses host p (searchWorkspace p) doc =
      workspaceRefuses host p p.workspace_id doc := by
  have hsame : (if searchWorkspace p = "" then "default"
      else searchWorkspace p) =
        if p.workspace_id = "" then "default" else p.workspace_id := by
    unfold searchWorkspace
    by_cases hempty : p.workspace_id = ""
    · rw [if_pos hempty]
      rfl
    · rw [if_neg hempty, if_neg hempty]
  unfold workspaceRefuses
  rw [hsame]

/-- The gate takes no workspace for the default one. -/
theorem mayRead_eq (row : VaultRow) :
    mayRead host p row =
      canReadDocument host (some p) p.workspace_id row.toDict := by
  unfold mayRead VaultRow.toDict canReadDocument
  dsimp only
  rw [workspaceRefuses_searchWorkspace]

end Law

/-- A vault is skipped without loss exactly where it is asked anyway or its
look is a good one, and a combined search over such vaults returns what asking
them all returns. -/
theorem skipping_hides_nothing (host : ReadHost) (p : EffectivePrincipal)
    (now : Nat) :
    (forall vault sqlFails,
      HidesNothing host (some p) vault now sqlFails <->
        AskedAnyway p vault ∨ LooksWell host p vault now sqlFails) ∧
    (forall vault sqlFails, HidesNothing host none vault now sqlFails) ∧
    forall legs : List VaultLeg,
      (forall leg, leg ∈ legs -> AskedAnyway p leg.vault ∨
        LooksWell host p leg.vault now leg.sqlFails) ->
      combinedResults host p now legs =
        legs.flatMap (VaultLeg.results host p) := by
  have hlaw : forall vault sqlFails,
      HidesNothing host (some p) vault now sqlFails <->
        AskedAnyway p vault ∨ LooksWell host p vault now sqlFails := by
    intro vault sqlFails
    by_cases hlook : AskedAnyway p vault
    · constructor
      · exact fun _ => Or.inl hlook
      · intro _ hfalse
        have htrue : (shouldQueryForeignVault host (some p) vault now
            sqlFails).1 = true := by
          unfold shouldQueryForeignVault
          dsimp only
          rcases hlook with hempty | hown | hpatched
          · rw [if_pos (Or.inl hempty)]
          · rw [if_pos (Or.inr hown)]
          · rw [hpatched]
            split
            · rfl
            · rfl
        rw [htrue] at hfalse
        cases hfalse
    · rw [← hides_nothing_iff_looks_well hlook]
      constructor
      · intro h
        apply Or.inr
        intro hfalse row hrow
        rw [mayRead_eq]
        exact h hfalse row hrow p rfl
      · rintro (hbad | h)
        · exact absurd hbad hlook
        · intro hfalse row hrow other hother
          rw [← Option.some.inj hother, ← mayRead_eq]
          exact h hfalse row hrow
  refine ⟨hlaw, ?_, ?_⟩
  · intro vault sqlFails hfalse
    cases hfalse
  · intro legs hlegs
    unfold combinedResults
    induction legs with
    | nil => rfl
    | cons leg rest ih =>
        have hrest := ih fun other hother =>
          hlegs other (List.mem_cons_of_mem _ hother)
        rw [List.flatMap_cons, ← hrest]
        cases hasked : leg.asked host p now with
        | true => rw [List.filter_cons_of_pos hasked, List.flatMap_cons]
        | false =>
            have hnone : leg.results host p = [] := by
              apply List.filter_eq_nil_iff.mpr
              intro row hrow hread
              rw [mayRead_eq] at hread
              have hhidden := (hlaw leg.vault leg.sqlFails).mpr
                (hlegs leg List.mem_cons_self) hasked row
                  (List.mem_filter.mp hrow).left p rfl
              rw [hread] at hhidden
              cases hhidden
            rw [List.filter_cons_of_neg (by rw [hasked]; exact
              Bool.false_ne_true), hnone, List.nil_append]

/-!
## A padded owner
-/

namespace PaddedOwner

/-- The only row of a vault; its owner is stored with a blank behind it. -/
def row : VaultRow :=
  { path := "notes/plan.md"
    agent := some "bob "
    sigil := some "B"
    page_type := none
    privacy_level := some "safe" }

def vault : ForeignVault :=
  { source_agent := "ann"
    plainEngine := true
    vault_path := none
    documents := [row]
    cache := [] }

/-- The query does not select the row, and the gate lets it through. -/
theorem padded_owner_hidden :
    ¬ HidesNothing plainReadHost (some plainReader) vault 0 false := by
  intro h
  have hskipped : (shouldQueryForeignVault plainReadHost (some plainReader)
      vault 0 false).1 = false := by
    decide +kernel
  have hread : canReadDocument plainReadHost (some plainReader)
      plainReader.workspace_id row.toDict = true := by
    decide +kernel
  have hhidden := h hskipped row List.mem_cons_self plainReader rfl
  rw [hread] at hhidden
  cases hhidden

end PaddedOwner

end Daemon
end Minni
