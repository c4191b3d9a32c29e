import Minni.Daemon.Statements

/-!
# What an accepting call commits

Each call that accepts a text either reports a learning that is committed with
its owner and its content, or leaves the learnings and the candidates as they
were, up to what it does on purpose: a missing hash is filled in, a staged
proposal is added, and a candidate that reads like an instruction keeps its
flag.  The writes are followed from the text of each handler.
-/

namespace Minni
namespace Daemon

open Foundation
open Foundation.Db

/-!
## Outcomes
-/

def Committed (lid : Nat) (owner content : String) (s : Store) : Prop :=
  exists row, row ∈ s.learnings ∧ row.learning_id = lid ∧
    row.agent_id = owner ∧ row.content = content

def AcceptedCandidate (cid : Nat) (s : Store) : Prop :=
  exists row, row ∈ s.candidates ∧ row.candidate_id = cid ∧
    row.status = CandidateStatus.accepted

def Unchanged (s s' : Store) : Prop :=
  s'.learnings = s.learnings ∧ s'.candidates = s.candidates

def Learning.withoutHash (row : Learning) : Learning :=
  { row with content_hash := none }

/-- The learnings up to hashes that were filled in. -/
def SameLearnings (s s' : Store) : Prop :=
  s'.learnings.map Learning.withoutHash = s.learnings.map Learning.withoutHash

def Candidate.withoutFlag (cid : Nat) (row : Candidate) : Candidate :=
  if row.candidate_id = cid then { row with instruction_like := false }
  else row

/-- The candidates up to the flag of one. -/
def SameCandidates (cid : Nat) (s s' : Store) : Prop :=
  s'.candidates.map (Candidate.withoutFlag cid) =
    s.candidates.map (Candidate.withoutFlag cid)

/-- The active learning of the owner that a learn repeats. -/
def Repeated (host : Host) (lid : Nat) (owner content : String) (s : Store) :
    Prop :=
  exists row, row ∈ s.learnings ∧ row.learning_id = lid ∧
    row.agent_id = owner ∧ row.isActive = true ∧
    row.content_hash.getD (host.content_hash row.content) =
      host.content_hash content

def LearnOutcome (host : Host) (p : EffectivePrincipal) (params : LearnParams)
    (s : Store) : Except DbError Response -> Store -> Prop
  | Except.ok (Response.learned lid _ _ false _), s' =>
      Committed lid p.agent_id (params.content.getD "") s'
  | Except.ok (Response.learned lid _ _ true _), s' =>
      Repeated host lid p.agent_id (params.content.getD "") s ∧
        SameLearnings s s' ∧ s'.candidates = s.candidates
  | Except.ok _, s' => Unchanged s s'
  | Except.error _, _ => False

def StageOutcome (host : Host) (env : Env) (p : EffectivePrincipal)
    (params : LearnParams) (s : Store) :
    Except DbError Response -> Store -> Prop
  | Except.ok (Response.accepted cid _ _ _ _ lid _ _), s' =>
      Committed lid p.agent_id params.stagedContent s' ∧
        AcceptedCandidate cid s'
  | Except.ok (Response.proposed cid _ _ _ _ _), s' =>
      s'.learnings = s.learnings ∧
        s'.candidates = s.candidates ++ [stagedRow host env p params cid]
  | Except.ok _, s' => Unchanged s s'
  | Except.error _, _ => False

/-- The learning of a candidate that a caller accepts. -/
def CommittedFor (p : EffectivePrincipal) (cid lid : Nat) (s s' : Store) :
    Prop :=
  exists row, s.findCandidate cid = some row ∧
    Committed lid (if row.principal = "" then p.agent_id else row.principal)
      row.content s'

def AcceptOutcome (p : EffectivePrincipal) (cid : Nat) (s : Store) :
    Except DbError Response -> Store -> Prop
  | Except.ok (Response.resolved _ _ (some lid) _ _), s' =>
      CommittedFor p cid lid s s' ∧ AcceptedCandidate cid s'
  | Except.ok (Response.error _ _), s' =>
      s'.learnings = s.learnings ∧ SameCandidates cid s s'
  | _, _ => False

def PromoteOutcome (cid : Nat) (s : Store) :
    Except DbError (Option Nat) -> Store -> Prop
  | Except.ok (some lid), s' =>
      (exists row, s.findCandidate cid = some row ∧
        Committed lid row.owner row.content s') ∧
      AcceptedCandidate cid s'
  | _, s' => SameLearnings s s' ∧ SameCandidates cid s s'

/-- The rows of a database: its keys are those that it issued. -/
structure Database where
  store : Store
  keys : forall row, row ∈ store.learnings ->
    row.learning_id < store.nextLearning

/-- No purge of a near duplicate of the text begins its transaction. -/
def PurgeFree (host : Host) (env : Env) (agent_id category content : String)
    (embedding : Option Embedding) (except : Option Nat) (s : Store) : Prop :=
  forall row, row ∈ s.learnings -> row.agent_id = agent_id ->
    row.category = category -> row.isCurrent = true ->
    (host.jaccardNear content row.content ||
      cosineReaches host embedding row.embedding) = true ->
    except ≠ some row.learning_id ->
    env.purgeBegins row.learning_id = false

/-!
## Rows that stay
-/

section Rows

variable {lid : Nat} {owner content : String} {s w : Store}

theorem committed_insert
    {row : Nat -> Learning} (hid : (row s.nextLearning).learning_id =
      s.nextLearning) (howner : (row s.nextLearning).agent_id = owner)
    (hcontent : (row s.nextLearning).content = content) :
    Committed s.nextLearning owner content (s.insertLearning row).2 :=
  ⟨row s.nextLearning, List.mem_append.mpr (Or.inr (List.mem_singleton.mpr rfl)),
    hid, howner, hcontent⟩

theorem committed_update
    (h : Committed lid owner content w) {target : Nat}
    {f : Learning -> Learning}
    (hf : forall row, (f row).learning_id = row.learning_id ∧
      (f row).agent_id = row.agent_id ∧ (f row).content = row.content) :
    Committed lid owner content (w.updateLearning target f) := by
  rcases h with ⟨row, hrow, hid, howner, hcontent⟩
  refine ⟨if row.learning_id = target then f row else row,
    List.mem_map.mpr ⟨row, hrow, rfl⟩, ?_⟩
  split
  · rcases hf row with ⟨hfid, hfowner, hfcontent⟩
    exact ⟨hfid.trans hid, hfowner.trans howner, hfcontent.trans hcontent⟩
  · exact ⟨hid, howner, hcontent⟩

theorem committed_evict
    (h : Committed lid owner content w) {target : Nat}
    (htarget : target ≠ lid) :
    Committed lid owner content (w.evict target) := by
  rcases h with ⟨row, hrow, hid, howner, hcontent⟩
  let row' : Learning :=
    if row.superseded_by = some target then { row with superseded_by := none }
    else row
  have hkeeps : row'.learning_id = row.learning_id ∧
      row'.agent_id = row.agent_id ∧ row'.content = row.content := by
    show (if row.superseded_by = some target then
        { row with superseded_by := none } else row).learning_id = _ ∧
      (if row.superseded_by = some target then
        { row with superseded_by := none } else row).agent_id = _ ∧
      (if row.superseded_by = some target then
        { row with superseded_by := none } else row).content = _
    split
    · exact ⟨rfl, rfl, rfl⟩
    · exact ⟨rfl, rfl, rfl⟩
  refine ⟨row', ?_, hkeeps.left.trans hid, hkeeps.right.left.trans howner,
    hkeeps.right.right.trans hcontent⟩
  apply List.mem_filter.mpr
  constructor
  · exact List.mem_map.mpr ⟨row, hrow, rfl⟩
  · rw [hkeeps.left, hid]
    simpa using htarget.symm

theorem acceptedCandidate_update
    {cid : Nat} {now : Nat} {resolved_by reason : String}
    (h : exists row, row ∈ w.candidates ∧ row.candidate_id = cid) :
    AcceptedCandidate cid (w.updateCandidate cid
      (Candidate.resolve CandidateStatus.accepted now resolved_by reason)) := by
  rcases h with ⟨row, hrow, hid⟩
  refine ⟨_, List.mem_map.mpr ⟨row, hrow, rfl⟩, ?_⟩
  rw [if_pos hid]
  exact ⟨hid, rfl⟩

theorem sameLearnings_update
    {target : Nat} {f : Learning -> Learning}
    (hf : forall row, (f row).withoutHash = row.withoutHash) :
    SameLearnings w (w.updateLearning target f) := by
  show (w.learnings.map _).map _ = _
  rw [List.map_map]
  apply List.map_congr_left
  intro row _
  show (if row.learning_id = target then f row else row).withoutHash = _
  split
  · exact hf row
  · rfl

theorem sameCandidates_flag (cid : Nat) :
    SameCandidates cid w (w.updateCandidate cid Candidate.flag) := by
  show (w.candidates.map _).map _ = _
  rw [List.map_map]
  apply List.map_congr_left
  intro row _
  show (if row.candidate_id = cid then row.flag else row).withoutFlag cid =
    row.withoutFlag cid
  split
  · rename_i hid
    have hflag : row.flag.candidate_id = cid := hid
    unfold Candidate.withoutFlag
    rw [if_pos hid, if_pos hflag]
    rfl
  · rfl

end Rows

/-!
## Duplicates
-/

theorem mem_of_newest
    {rows : List Learning} {row : Learning} (h : newest rows = some row) :
    row ∈ rows := by
  induction rows generalizing row with
  | nil => cases h
  | cons first rest ih =>
      unfold newest at h
      split at h
      · cases h
        exact List.mem_cons_self ..
      · rename_i later hlater
        split at h
        · cases h
          exact List.mem_cons_of_mem _ (ih hlater)
        · cases h
          exact List.mem_cons_self ..

theorem repeated_of_find
    {host : Host} {owner content : String} {s : Store} {row : Learning}
    (h : findActiveLearningByHash host (host.content_hash content) owner s =
      some row) :
    Repeated host row.learning_id owner content s := by
  unfold findActiveLearningByHash at h
  dsimp only at h
  split at h
  · rename_i found hfound
    cases h
    have hmem := List.mem_filter.mp (mem_of_newest hfound)
    have hcurrent := List.mem_filter.mp hmem.left
    simp only [Bool.and_eq_true, decide_eq_true_eq] at hcurrent
    refine ⟨row, hcurrent.left, rfl, hcurrent.right.right,
      Learning.isActive_of_isCurrent hcurrent.right.left, ?_⟩
    have hhash : row.content_hash = some (host.content_hash content) := by
      simpa using hmem.right
    rw [hhash]
    rfl
  · have hmem := List.mem_filter.mp (mem_of_newest h)
    have hcurrent := List.mem_filter.mp hmem.left
    simp only [Bool.and_eq_true, decide_eq_true_eq] at hcurrent
    have hrest := hmem.right
    simp only [Bool.and_eq_true, decide_eq_true_eq, Option.isNone_iff_eq_none]
      at hrest
    refine ⟨row, hcurrent.left, rfl, hcurrent.right.right,
      Learning.isActive_of_isCurrent hcurrent.right.left, ?_⟩
    rw [hrest.left]
    exact hrest.right

theorem mem_findNearDuplicates
    {host : Host} {agent_id category content : String} {lid dup : Nat}
    {embedding : Option Embedding} {w : Store}
    (h : dup ∈ findNearDuplicates host agent_id category content lid embedding
      w) :
    exists row, row ∈ w.learnings ∧ row.learning_id = dup ∧ dup ≠ lid ∧
      isNearDuplicate host agent_id category content lid
        (targetEmbedding lid embedding w) row = true := by
  rcases List.mem_map.mp h with ⟨row, hrow, hid⟩
  rcases List.mem_filter.mp hrow with ⟨hmem, hnear⟩
  refine ⟨row, hmem, hid, ?_, hnear⟩
  simp only [isNearDuplicate, Bool.and_eq_true, decide_eq_true_eq] at hnear
  rw [← hid]
  exact hnear.left.right

section Writing

variable {s w : Store} {Q : Unit -> Store -> Prop}

theorem writes_evict
    {env : Env} {dup : Nat} (hstay : Q () w) (hevict : Q () (w.evict dup)) :
    Writes (evictLearningToColdArchive env dup) Q s w := by
  apply writes_bind
  apply writes_select
  split
  · exact writes_pure hstay
  · apply writes_bind
    apply writes_mayRaise
    exact writes_execute hevict

theorem writes_evictNearDuplicate
    {env : Env} {dup : Nat} (hpurge : env.purgeBegins dup = false)
    (hstay : Q () w) (hevict : Q () (w.evict dup)) :
    Writes (evictNearDuplicate env dup) Q s w := by
  have hnone : forall content,
      purgeDurableLearning env dup content = pure () := by
    intro content
    unfold purgeDurableLearning
    rw [hpurge]
    rfl
  apply writes_bind
  apply writes_select
  apply writes_bind
  rw [hnone]
  exact writes_evict (writes_pure hstay) (writes_pure hevict)

theorem writes_scan
    {host : Host} {env : Env} {agent_id category content : String} {lid : Nat}
    {embedding : Option Embedding} {Q : List Nat -> Store -> Prop}
    (h : Q (findNearDuplicates host agent_id category content lid embedding w)
      w) :
    Writes (scanNearDuplicates host env agent_id category content lid
      embedding) Q s w := by
  apply writes_bind
  apply writes_mayRaise
  exact writes_select h

end Writing

/-!
## Refusals
-/

theorem rejectWireSupplied_error
    {keys : List String} {refusal : Response}
    (h : rejectWireSuppliedAutoAccept keys = some refusal) :
    exists code message, refusal = Response.error code message := by
  unfold rejectWireSuppliedAutoAccept at h
  rcases Option.map_eq_some_iff.mp h with ⟨key, _, heq⟩
  exact ⟨_, _, heq.symm⟩

theorem learnRefusal_error
    {params : LearnParams} {refusal : Response}
    (h : learnRefusal params = some refusal) :
    exists code message, refusal = Response.error code message := by
  unfold learnRefusal at h
  split at h
  · rename_i wire hwire
    cases h
    exact rejectWireSupplied_error hwire
  · split at h
    · cases h
      exact ⟨_, _, rfl⟩
    · split at h
      · cases h
        exact ⟨_, _, rfl⟩
      · split at h
        · cases h
          exact ⟨_, _, rfl⟩
        · split at h
          · cases h
            exact ⟨_, _, rfl⟩
          · cases h

/-!
## Learning by force
-/

section Forced

variable {host : Host} {env : Env} {p : EffectivePrincipal}
  {params : LearnParams}

/-- The store after the new row and the mark on its predecessor. -/
def replacing (supersedes : Option Nat) (lid : Nat) (w : Store) : Store :=
  match givenId supersedes with
  | some predecessor =>
      w.updateLearning predecessor (Learning.supersededBy lid)
  | none => w

theorem writes_supersedePredecessor
    {s w : Store} {supersedes : Option Nat} {lid : Nat}
    {Q : Unit -> Store -> Prop} (h : Q () (replacing supersedes lid w)) :
    Writes (supersedePredecessor supersedes lid) Q s w := by
  unfold supersedePredecessor
  unfold replacing at h
  cases hgiven : givenId supersedes with
  | none =>
      rw [hgiven] at h
      exact writes_pure h
  | some predecessor =>
      rw [hgiven] at h
      exact writes_execute h

theorem committed_replacing
    {lid : Nat} {owner content : String} {w : Store} {supersedes : Option Nat}
    {successor : Nat} (h : Committed lid owner content w) :
    Committed lid owner content (replacing supersedes successor w) := by
  unfold replacing
  split
  · exact committed_update h (fun _ => ⟨rfl, rfl, rfl⟩)
  · exact h

theorem replacing_row
    {supersedes : Option Nat} {lid : Nat} {w : Store} {row : Learning}
    (h : row ∈ (replacing supersedes lid w).learnings) :
    row ∈ w.learnings ∨
      exists old, old ∈ w.learnings ∧ row = Learning.supersededBy lid old := by
  unfold replacing at h
  split at h
  · rcases List.mem_map.mp h with ⟨old, hold, heq⟩
    split at heq
    · exact Or.inr ⟨old, hold, heq.symm⟩
    · rw [heq] at hold
      exact Or.inl hold
  · exact Or.inl h

/-- The embedding that the scan falls back on is that of the new row. -/
theorem replacing_embedding
    (db : Database) (row : Nat -> Learning) (supersedes : Option Nat)
    (hid : forall lid, (row lid).learning_id = lid) :
    ((replacing supersedes db.store.nextLearning
        (db.store.insertLearning row).2).findLearning
          db.store.nextLearning).bind (·.embedding) =
      (row db.store.nextLearning).embedding := by
  have hbefore : db.store.learnings.find?
      (fun r => r.learning_id = db.store.nextLearning) = none := by
    apply List.find?_eq_none.mpr
    intro r hr heq
    have hbelow := db.keys r hr
    have hid' : r.learning_id = db.store.nextLearning := by simpa using heq
    rw [hid'] at hbelow
    exact Nat.lt_irrefl _ hbelow
  have hinserted : (db.store.insertLearning row).2.findLearning
      db.store.nextLearning = some (row db.store.nextLearning) := by
    show (db.store.learnings ++ [row db.store.nextLearning]).find? _ = _
    rw [List.find?_append, hbefore]
    simp [hid]
  unfold replacing
  split
  · rename_i predecessor _
    show (((db.store.insertLearning row).2.learnings.map _).find? _).bind _ = _
    rw [List.find?_map]
    have hcongr : forall r : Learning,
        ((fun r : Learning => decide (r.learning_id = db.store.nextLearning)) ∘
          fun r => if r.learning_id = predecessor then
            Learning.supersededBy db.store.nextLearning r else r) r =
        decide (r.learning_id = db.store.nextLearning) := by
      intro r
      simp only [Function.comp]
      split <;> rfl
    have hsame : (db.store.insertLearning row).2.learnings.find?
        ((fun r : Learning => decide (r.learning_id = db.store.nextLearning)) ∘
          fun r => if r.learning_id = predecessor then
            Learning.supersededBy db.store.nextLearning r else r) =
        some (row db.store.nextLearning) := by
      rw [← hinserted]
      exact congrArg (fun f => List.find? f _) (funext hcongr)
    rw [hsame]
    show (if (row db.store.nextLearning).learning_id = predecessor then
      Learning.supersededBy db.store.nextLearning (row db.store.nextLearning)
      else row db.store.nextLearning).embedding = _
    split <;> rfl
  · rw [hinserted]
    rfl

/-- A near duplicate of the new row was active before the call. -/
theorem purgeFree_near
    {agent_id category content : String} {embedding : Option Embedding}
    {except : Option Nat} {db : Database} (row : Nat -> Learning)
    {supersedes : Option Nat} {dup : Nat}
    (hid : forall lid, (row lid).learning_id = lid)
    (hembedding : (row db.store.nextLearning).embedding = embedding)
    (hfree : PurgeFree host env agent_id category content embedding except
      db.store)
    (hexcept : except ≠ some dup)
    (h : dup ∈ findNearDuplicates host agent_id category content
      db.store.nextLearning embedding
      (replacing supersedes db.store.nextLearning
        (db.store.insertLearning row).2)) :
    dup ≠ db.store.nextLearning ∧ env.purgeBegins dup = false := by
  rcases mem_findNearDuplicates h with ⟨other, hother, hkey, hne, hnear⟩
  have htarget : targetEmbedding db.store.nextLearning embedding
      (replacing supersedes db.store.nextLearning
        (db.store.insertLearning row).2) = embedding := by
    unfold targetEmbedding
    split
    · rfl
    · rw [replacing_embedding db row supersedes hid, hembedding]
  rw [htarget] at hnear
  simp only [isNearDuplicate, Bool.and_eq_true, decide_eq_true_eq] at hnear
  rcases hnear with ⟨⟨⟨⟨hagent, hcategory⟩, hcurrent⟩, _⟩, hlike⟩
  refine ⟨hne, ?_⟩
  rcases replacing_row hother with hinserted | ⟨old, _, heq⟩
  · rcases List.mem_append.mp hinserted with hold | hnew
    · rw [← hkey]
      apply hfree other hold hagent hcategory hcurrent hlike
      rw [hkey]
      exact hexcept
    · rw [List.mem_singleton.mp hnew, hid] at hkey
      exact absurd hkey.symm hne
  · rw [heq] at hcurrent
    simp [Learning.supersededBy, Learning.isCurrent] at hcurrent

theorem writes_forced
    {db : Database}
    (hfree : PurgeFree host env p.agent_id
      (knownCategory (params.rawCategory host)) (params.content.getD "")
      env.embedding (givenId params.supersedes) db.store) :
    Writes (forcedWrites host env p params)
      (fun lid w => Committed lid p.agent_id (params.content.getD "") w)
      db.store db.store := by
  apply writes_bind
  apply writes_mayRaise
  apply writes_bind
  apply writes_insert
  apply writes_bind
  apply writes_supersedePredecessor
  apply writes_bind
  apply writes_mayRaise
  apply writes_bind
  apply writes_mayRaise
  apply writes_bind
  apply writes_scan
  apply writes_bind
  have hcommitted : Committed db.store.nextLearning p.agent_id
      (params.content.getD "")
      (replacing params.supersedes db.store.nextLearning
        (db.store.insertLearning (forcedRow host env p params)).2) :=
    committed_replacing (committed_insert rfl rfl rfl)
  apply writes_mono (writes_forEach
    (I := Committed db.store.nextLearning p.agent_id (params.content.getD ""))
    _ hcommitted)
  · intro _ w hw
    exact writes_pure hw
  · intro dup hdup w hw
    split
    · exact writes_pure hw
    · rename_i hexcept
      have hspec := purgeFree_near (forcedRow host env p params)
        (fun _ => rfl) rfl hfree hexcept hdup
      exact writes_evictNearDuplicate hspec.right hw
        (committed_evict hw hspec.left)

theorem fillHash_withoutHash (hash : String) (row : Learning) :
    (Learning.fillHash hash row).withoutHash = row.withoutHash := by
  unfold Learning.fillHash
  split <;> rfl

theorem returns_forceLearn
    {db : Database}
    (hfree : PurgeFree host env p.agent_id
      (knownCategory (params.rawCategory host)) (params.content.getD "")
      env.embedding (givenId params.supersedes) db.store) :
    Returns (forceLearn host env p params)
      (fun r s' => match r with
        | Except.ok response =>
            LearnOutcome host p params db.store (Except.ok response) s'
        | Except.error _ => s' = db.store) db.store := by
  apply returns_bind
  apply returns_cursor
  · apply writes_bind
    apply writes_select
    cases hexisting : repeatedLearning host p params db.store with
    | none =>
        apply writes_bind
        apply writes_mono (writes_forced hfree)
        intro lid w hw
        apply writes_pure
        exact returns_pure hw
    | some row =>
        have hfound : Repeated host row.learning_id p.agent_id
            (params.content.getD "") db.store := by
          unfold repeatedLearning at hexisting
          split at hexisting
          · exact repeated_of_find hexisting
          · cases hexisting
        apply writes_bind
        apply writes_whenever
        · intro _
          apply writes_execute
          apply writes_pure
          apply returns_pure
          exact ⟨hfound, sameLearnings_update (fillHash_withoutHash _), rfl⟩
        · intro _
          apply writes_pure
          apply returns_pure
          exact ⟨hfound, rfl, rfl⟩
  · intro e
    rfl

theorem returns_handleLearn
    {db : Database} (hforce : params.force = true)
    (hfree : PurgeFree host env p.agent_id
      (knownCategory (params.rawCategory host)) (params.content.getD "")
      env.embedding (givenId params.supersedes) db.store) :
    Returns (handleLearn host env (Except.ok p) params)
      (LearnOutcome host p params db.store) db.store := by
  unfold handleLearn
  split
  · rename_i refusal hrefusal
    rcases learnRefusal_error hrefusal with ⟨code, message, heq⟩
    rw [heq]
    exact returns_pure ⟨rfl, rfl⟩
  · dsimp only
    split
    · exact returns_pure ⟨rfl, rfl⟩
    · split
      · rename_i hcontradiction
        simp [hforce] at hcontradiction
      · split
        · rename_i hnot
          simp [hforce] at hnot
        · split
          · exact returns_pure ⟨rfl, rfl⟩
          · apply returns_tryExcept
            apply returns_mono (returns_forceLearn hfree)
            intro r s' hr
            cases r with
            | ok response => exact hr
            | error e =>
                rw [hr]
                exact returns_pure ⟨rfl, rfl⟩

end Forced

/-!
## Staging
-/

section Staging

variable {host : Host} {env : Env} {p : EffectivePrincipal}
  {params : LearnParams}

/-- The purges that the acceptance of a staged candidate may reach. -/
def StagePurgeFree (host : Host) (env : Env) (p : EffectivePrincipal)
    (params : LearnParams) (s : Store) : Prop :=
  PurgeFree host env p.agent_id (params.stagedCategory host)
    params.stagedContent env.embedding none s

theorem writes_autoAccept
    {db : Database} {w : Store} {cid : Nat} {chash : String}
    {blob : Embedding}
    (hlearnings : w.learnings = db.store.learnings)
    (hcandidate : exists row, row ∈ w.candidates ∧ row.candidate_id = cid)
    (hblob : env.embedding = some blob)
    (hfree : StagePurgeFree host env p params db.store) :
    Writes (autoAcceptWrites host env p params cid chash blob)
      (fun lid w' => Committed lid p.agent_id params.stagedContent w' ∧
        AcceptedCandidate cid w') db.store w := by
  apply writes_bind
  apply writes_mayRaise
  apply writes_bind
  apply writes_insert
  apply writes_bind
  have hinserted : Committed w.nextLearning p.agent_id params.stagedContent
      (w.insertLearning (autoAcceptedRow host env p params chash blob)).2 :=
    committed_insert rfl rfl rfl
  apply writes_tryExcept _ (fun _ _ => writes_raise)
  apply writes_mayRaise
  apply writes_bind
  apply writes_scan
  apply writes_bind
  apply writes_mono (writes_forEach
    (I := fun w' => Committed w.nextLearning p.agent_id params.stagedContent
        w' ∧ exists row, row ∈ w'.candidates ∧ row.candidate_id = cid)
    _ ⟨hinserted, hcandidate⟩)
  · intro _ w' hw'
    apply writes_bind
    apply writes_execute
    apply writes_bind
    apply writes_execute
    apply writes_pure
    exact ⟨hw'.left, acceptedCandidate_update hw'.right⟩
  · intro dup hdup w' hw'
    rcases mem_findNearDuplicates hdup with ⟨other, hother, hkey, hne, hnear⟩
    simp only [isNearDuplicate, targetEmbedding, Bool.and_eq_true,
      decide_eq_true_eq] at hnear
    rcases hnear with ⟨⟨⟨⟨hagent, hcategory⟩, hcurrent⟩, _⟩, hlike⟩
    have hpurge : env.purgeBegins dup = false := by
      rcases List.mem_append.mp hother with hold | hnew
      · rw [hlearnings] at hold
        rw [← hkey]
        apply hfree other hold hagent hcategory hcurrent
        · rw [hblob]
          exact hlike
        · intro hnone
          cases hnone
      · rw [List.mem_singleton.mp hnew] at hkey
        exact absurd hkey.symm hne
    exact writes_evictNearDuplicate hpurge hw'
      ⟨committed_evict hw'.left hne, hw'.right⟩

theorem returns_stageWrites
    {db : Database} (hfree : StagePurgeFree host env p params db.store) :
    Returns (stageWrites host env p params)
      (fun r s' => match r with
        | Except.ok response =>
            StageOutcome host env p params db.store (Except.ok response) s'
        | Except.error _ => s' = db.store) db.store := by
  unfold stageWrites
  dsimp only
  generalize hprepared : (if (p.auto_accept_own &&
      (params.withheld host).isEmpty) = true then
        prepareAutoAccept host env params.stagedContent else none) = prepared
  generalize (if (p.auto_accept_own && (params.withheld host).isEmpty &&
      prepared.isNone) = true then
        params.withheld host ++ ["durable-write preparation failed"]
      else params.withheld host) = reasons
  have hproposed : forall (cid : Nat) (w : Store) (reasons : List String),
      w.learnings = db.store.learnings ->
      w.candidates = db.store.candidates ++ [stagedRow host env p params cid] ->
      StageOutcome host env p params db.store
        (Except.ok (stagedResponse host env p params (cid, none, reasons)))
        w := by
    intro cid w reasons hlearnings hcandidates
    exact ⟨hlearnings, hcandidates⟩
  apply returns_bind
  apply returns_tryExcept
  apply returns_transaction
  · apply writes_bind
    apply writes_insert
    cases hcase : prepared with
    | none =>
        apply writes_pure
        apply returns_pure
        exact hproposed _ _ _ rfl rfl
    | some pair =>
        rcases pair with ⟨chash, blob⟩
        have hblob : env.embedding = some blob := by
          rw [hcase] at hprepared
          split at hprepared
          · unfold prepareAutoAccept at hprepared
            split at hprepared
            · rcases Option.map_eq_some_iff.mp hprepared with
                ⟨blob', hblob', heq⟩
              cases heq
              exact hblob'
            · cases hprepared
          · cases hprepared
        apply writes_bind
        apply writes_select
        split
        · apply writes_pure
          apply returns_pure
          exact hproposed _ _ _ rfl rfl
        · apply writes_bind
          have hcandidate : exists row,
              row ∈ (db.store.insertCandidate
                (stagedRow host env p params)).2.candidates ∧
              row.candidate_id = db.store.nextCandidate :=
            ⟨stagedRow host env p params db.store.nextCandidate,
              List.mem_append.mpr (Or.inr (List.mem_singleton.mpr rfl)), rfl⟩
          have haccept : Writes
              (autoAcceptWrites host env p params db.store.nextCandidate chash
                blob)
              (fun lid w => Committed lid p.agent_id params.stagedContent w ∧
                AcceptedCandidate db.store.nextCandidate w)
              db.store
              (db.store.insertCandidate (stagedRow host env p params)).2 :=
            writes_autoAccept rfl hcandidate hblob hfree
          apply writes_mono haccept
          intro lid w hw
          apply writes_pure
          apply returns_pure
          exact hw
  · intro e
    cases e with
    | failed text => exact returns_raise rfl
    | resolveRejected refusal => exact returns_raise rfl
    | canonicalCommitFailed cause =>
        apply returns_bind
        apply returns_transaction
        · apply writes_insert
          apply returns_pure
          apply returns_pure
          exact hproposed _ _ _ rfl rfl
        · intro e
          rfl

theorem returns_stageCandidate
    {db : Database} (hfree : StagePurgeFree host env p params db.store) :
    Returns (stageCandidate host env (Except.ok p) params)
      (StageOutcome host env p params db.store) db.store := by
  unfold stageCandidate
  split
  · rename_i refusal hrefusal
    rcases rejectWireSupplied_error hrefusal with ⟨code, message, heq⟩
    rw [heq]
    exact returns_pure ⟨rfl, rfl⟩
  · apply returns_bind
    apply returns_read
    dsimp only
    split
    · exact returns_pure ⟨rfl, rfl⟩
    · split
      · exact returns_pure ⟨rfl, rfl⟩
      · apply returns_tryExcept
        apply returns_mono (returns_stageWrites hfree)
        intro r s' hr
        cases r with
        | ok response => exact hr
        | error e =>
            rw [hr]
            exact returns_pure ⟨rfl, rfl⟩

end Staging

/-!
## Accepting a candidate
-/

section Accepting

variable {host : Host} {env : Env} {p : EffectivePrincipal}
  {params : ResolveParams}

theorem writes_checkSuperseded
    {s w : Store} {author : String} {ids : List (Option Nat)}
    {collected : List Nat} :
    Writes (checkSuperseded host p author ids collected)
      (fun _ w' => w' = w) s w := by
  induction ids generalizing collected with
  | nil => exact writes_pure rfl
  | cons id rest ih =>
      cases id with
      | none => exact writes_raise
      | some sid =>
          apply writes_bind
          apply writes_select
          split
          · exact writes_raise
          · split
            · exact writes_raise
            · exact ih

/-- The updates that mark a learning leave the candidates alone. -/
theorem writes_supersedeSameHash
    {s w : Store} {h author : String} {rounds : Nat} {collected : List Nat} :
    Writes (supersedeSameHash host h author rounds collected)
      (fun _ w' => w'.candidates = w.candidates) s w := by
  induction rounds generalizing collected w with
  | zero => exact writes_pure rfl
  | succ rounds ih =>
      apply writes_bind
      apply writes_select
      split
      · exact writes_pure rfl
      · split
        · exact writes_pure rfl
        · apply writes_bind
          apply writes_execute
          apply writes_mono ih
          intro _ w' hw'
          exact hw'

theorem writes_retirePredecessors
    {s w : Store} {lid : Nat} {owner content : String}
    {predecessors : List Nat}
    (hcommitted : Committed lid owner content w) :
    Writes (retirePredecessors env lid predecessors)
      (fun _ w' => Committed lid owner content w' ∧
        w'.candidates = w.candidates) s w := by
  induction predecessors generalizing w with
  | nil => exact writes_pure ⟨hcommitted, rfl⟩
  | cons predecessor rest ih =>
      unfold retirePredecessors
      split
      · exact ih hcommitted
      · rename_i hne
        apply writes_bind
        apply writes_bind
        apply writes_select
        apply writes_bind
        have hrest : forall w', Committed lid owner content w' ->
            w'.candidates = w.candidates -> forall name : String,
            Writes (retirePredecessors env lid rest >>= fun contents =>
              (pure ((predecessor, name) :: contents) :
                Governance (List (Nat × String))))
              (fun _ w'' => Committed lid owner content w'' ∧
                w''.candidates = w.candidates) s w' := by
          intro w' hw' hsame name
          apply writes_bind
          apply writes_mono (ih hw')
          intro contents w'' hw''
          exact writes_pure ⟨hw''.left, hw''.right.trans hsame⟩
        unfold retireRow
        split
        · exact writes_evict (writes_pure (hrest _ hcommitted rfl _))
            (writes_pure (hrest _ (committed_evict hcommitted hne) rfl _))
        · apply writes_execute
          apply writes_pure
          have hretired : Committed lid owner content
              (w.updateLearning predecessor (Learning.retiredBy lid)) :=
            committed_update hcommitted (fun _ => ⟨rfl, rfl, rfl⟩)
          exact hrest _ hretired rfl _

theorem writes_acceptWrites
    {s w : Store} {author : String} {row : Candidate} :
    Writes (acceptWrites host env p params author row)
      (fun accepted w' => Committed accepted.1 author row.content w' ∧
        w'.candidates = w.candidates) s w := by
  unfold acceptWrites
  split
  · exact writes_raise
  · apply writes_bind
    apply writes_mono writes_checkSuperseded
    intro requested w1 hw1
    rw [hw1]
    apply writes_bind
    apply writes_select
    apply writes_bind
    apply writes_mono writes_supersedeSameHash
    intro predecessors w2 hw2
    apply writes_bind
    apply writes_mayRaise
    apply writes_bind
    apply writes_insert
    apply writes_bind
    apply writes_mayRaise
    apply writes_bind
    apply writes_scan
    apply writes_bind
    apply writes_mono (writes_retirePredecessors
      (committed_insert rfl rfl rfl))
    intro contents w3 hw3
    apply writes_pure
    exact ⟨hw3.left, hw3.right.trans hw2⟩

theorem writes_resolvable
    {s w : Store} {cid : Nat} {Q : Candidate -> Store -> Prop}
    (h : forall row, w.findCandidate cid = some row -> Q row w) :
    Writes (resolvableCandidate host p cid) Q s w := by
  apply writes_bind
  apply writes_select
  cases hfound : w.findCandidate cid with
  | none => exact writes_raise
  | some row =>
      dsimp only
      split
      · exact writes_raise
      · split
        · exact writes_raise
        · exact writes_pure (h row hfound)

/-- What the transaction of an acceptance returns. -/
def AcceptBlock (p : EffectivePrincipal) (cid : Nat) (s : Store) :
    Response ⊕ (Option Nat × List (Nat × String)) -> Store -> Prop
  | Sum.inl refusal, s' =>
      refusal = acceptFlaggedRequired ∧ s'.learnings = s.learnings ∧
        SameCandidates cid s s'
  | Sum.inr (some lid, _), s' =>
      CommittedFor p cid lid s s' ∧ AcceptedCandidate cid s'
  | Sum.inr (none, _), _ => False

theorem writes_flag
    {s : Store} {cid : Nat} {flags : Bool} {Q : Unit -> Store -> Prop}
    (h : forall w, w.learnings = s.learnings -> SameCandidates cid s w ->
      (forall row, row ∈ s.candidates -> row.candidate_id = cid ->
        exists row', row' ∈ w.candidates ∧ row'.candidate_id = cid) ->
      Q () w) :
    Writes (whenever flags
      (execute (Store.updateCandidate cid Candidate.flag)) : Governance Unit)
      Q s s := by
  apply writes_whenever
  · intro _
    apply writes_execute
    apply h (s.updateCandidate cid Candidate.flag) rfl (sameCandidates_flag cid)
    intro row hrow hid
    refine ⟨if row.candidate_id = cid then row.flag else row,
      List.mem_map.mpr ⟨row, hrow, rfl⟩, ?_⟩
    rw [if_pos hid]
    exact hid
  · intro _
    apply h _ rfl rfl
    intro row hrow hid
    exact ⟨row, hrow, hid⟩

theorem writes_resolveBlock
    {s : Store} {cid : Nat} :
    Writes (resolveBlock host env p params cid CandidateStatus.accepted)
      (AcceptBlock p cid s) s s := by
  apply writes_bind
  apply writes_resolvable
  intro row hfound
  rcases mem_of_findCandidate hfound with ⟨hrow, hid⟩
  apply writes_bind
  apply writes_flag
  intro w hlearnings hcandidates hkept
  split
  · apply writes_pure
    exact ⟨rfl, hlearnings, hcandidates⟩
  · apply writes_bind
    apply writes_whenever
    · intro _
      exact writes_raise
    · intro _
      apply writes_bind
      unfold acceptIfAsked
      rw [if_pos rfl]
      apply writes_bind
      apply writes_mono writes_acceptWrites
      intro accepted w' hw'
      rcases hw' with ⟨hcommitted, hsame⟩
      apply writes_pure
      apply writes_bind
      apply writes_execute
      apply writes_bind
      apply writes_execute
      apply writes_pure
      constructor
      · exact ⟨row, hfound, hcommitted⟩
      · have hrow' : exists row', row' ∈ w'.candidates ∧
            row'.candidate_id = cid := by
          rw [hsame]
          exact hkept row hrow hid
        exact acceptedCandidate_update hrow'

theorem returns_purgeDurableDocument
    {s : Store} {Q : Except DbError Unit -> Store -> Prop}
    (h : Q (Except.ok ()) s) :
    Returns purgeDurableDocument Q s := by
  apply returns_tryExcept
  apply returns_transaction
  · apply writes_pure
    exact h
  · intro e
    exact returns_pure h

theorem returns_purge
    {s : Store} {lid : Nat} {content : String}
    {Q : Except DbError Unit -> Store -> Prop} (h : Q (Except.ok ()) s) :
    Returns (purgeDurableLearning env lid content) Q s := by
  unfold purgeDurableLearning
  split
  · apply returns_bind
    apply returns_purgeDurableDocument
    dsimp only
    split
    · exact returns_pure h
    · apply returns_bind
      apply returns_read
      dsimp only
      split
      · exact returns_purgeDurableDocument h
      · exact returns_pure h
  · exact returns_pure h

theorem returns_purgeAll
    {s : Store} {contents : List (Nat × String)}
    {Q : Except DbError Unit -> Store -> Prop} (h : Q (Except.ok ()) s) :
    Returns (purgeAll env contents) Q s := by
  apply returns_forEach (I := fun s' => Q (Except.ok ()) s')
  · intro entry _ s' hs'
    split
    · exact returns_pure hs'
    · exact returns_purge hs'
  · intro s' hs'
    exact hs'
  · exact h

theorem returns_resolveCandidate
    {db : Database} {cid : Nat}
    (htarget : resolveTarget host params =
      Except.ok (cid, CandidateStatus.accepted)) :
    Returns (resolveCandidate host env (Except.ok p) params)
      (AcceptOutcome p cid db.store) db.store := by
  have hrefused : forall code message, AcceptOutcome p cid db.store
      (Except.ok (Response.error code message)) db.store :=
    fun _ _ => ⟨rfl, rfl⟩
  unfold resolveCandidate
  dsimp only
  split
  · exact returns_pure (hrefused _ _)
  · rw [htarget]
    apply returns_tryExcept
    apply returns_bind
    apply returns_transaction
    · apply writes_mono writes_resolveBlock
      intro outcome s' hs'
      match outcome, hs' with
      | Sum.inl refusal, hs' =>
          apply returns_pure
          rw [hs'.left]
          exact hs'.right
      | Sum.inr (some lid, contents), hs' =>
          apply returns_bind
          apply returns_purgeAll
          exact returns_pure hs'
      | Sum.inr (none, contents), hs' => exact hs'.elim
    · intro e
      cases e with
      | failed text => exact returns_pure (hrefused _ _)
      | resolveRejected refusal => exact returns_pure (hrefused _ _)
      | canonicalCommitFailed cause => exact returns_pure (hrefused _ _)

end Accepting

/-!
## Promoting a candidate
-/

section Promoting

variable {host : Host} {env : Env}

theorem writes_addReview
    {s w : Store} {cid : Nat} {detail : String} {Q : Bool -> Store -> Prop}
    (hstay : Q false w)
    (hadded : forall action, Q true (w.insertAction action)) :
    Writes (addReview cid detail) Q s w := by
  apply writes_bind
  apply writes_select
  split
  · exact writes_pure hstay
  · apply writes_bind
    apply writes_execute
    exact writes_pure (hadded _)

theorem returns_fenceFlagged
    {s : Store} {reason : String} {read : Candidate} :
    Returns (fenceFlagged reason read)
      (fun _ s' => s'.learnings = s.learnings ∧
        SameCandidates read.candidate_id s s') s := by
  apply returns_transaction
  · apply writes_bind
    apply writes_select
    apply writes_whenever
    · intro _
      apply writes_bind
      apply writes_execute
      apply writes_bind
      apply writes_addReview
      · exact writes_pure ⟨rfl, sameCandidates_flag _⟩
      · intro action
        exact writes_pure ⟨rfl, sameCandidates_flag _⟩
    · intro _
      exact ⟨rfl, rfl⟩
  · intro e
    exact ⟨rfl, rfl⟩

theorem returns_fenceRefused
    {s : Store} {reason : String} {read : Candidate} :
    Returns (fenceRefused host reason read)
      (fun _ s' => s'.learnings = s.learnings ∧
        s'.candidates = s.candidates) s := by
  apply returns_transaction
  · apply writes_bind
    apply writes_select
    apply writes_whenever
    · intro _
      apply writes_bind
      apply writes_addReview
      · exact writes_pure ⟨rfl, rfl⟩
      · intro action
        exact writes_pure ⟨rfl, rfl⟩
    · intro _
      exact ⟨rfl, rfl⟩
  · intro e
    exact ⟨rfl, rfl⟩

theorem returns_ensureDedupIndex {s : Store} :
    Returns (ensureDedupIndex host env)
      (fun _ s' => SameLearnings s s' ∧ s'.candidates = s.candidates) s := by
  apply returns_bind
  apply returns_mayRaise
  · apply returns_bind
    apply returns_read
    dsimp only
    split
    · exact returns_pure ⟨rfl, rfl⟩
    · apply returns_transaction
      · apply writes_forEach
          (I := fun w => SameLearnings s w ∧ w.candidates = s.candidates)
        · intro row _ w hw
          apply writes_execute
          have hsame : SameLearnings w (w.updateLearning row.learning_id
              fun l => { l with
                content_hash := some (host.content_hash row.content) }) :=
            sameLearnings_update (fun _ => rfl)
          exact ⟨hsame.trans hw.left, hw.right⟩
        · exact ⟨rfl, rfl⟩
      · intro e
        exact ⟨rfl, rfl⟩
  · intro e
    exact ⟨rfl, rfl⟩

theorem writes_promoteBlock
    {s : Store} {reason : String} {verdict : Option Verdict}
    {read : Candidate} :
    Writes (promoteBlock host env reason verdict read)
      (fun lid w => match lid with
        | some lid => Committed lid read.owner read.content w ∧
            AcceptedCandidate read.candidate_id w
        | none => w = s) s s := by
  apply writes_bind
  apply writes_select
  split
  · rename_i hunchanged
    rcases rowMatchesSnapshot_eq hunchanged with ⟨row, hfound, _⟩
    have hrow := mem_of_findCandidate hfound
    apply writes_bind
    apply writes_select
    apply writes_bind
    apply writes_mayRaise
    apply writes_bind
    apply writes_insert
    apply writes_bind
    apply writes_mayRaise
    apply writes_bind
    apply writes_execute
    apply writes_bind
    apply writes_execute
    apply writes_bind
    apply writes_execute
    apply writes_pure
    have hcommitted : Committed s.nextLearning read.owner read.content
        (s.insertLearning (promotedRow host env verdict read
          ((s.findCandidate read.candidate_id).getD read))).2 :=
      committed_insert rfl rfl rfl
    have hcandidate : exists row', row' ∈ (s.insertLearning
          (promotedRow host env verdict read
            ((s.findCandidate read.candidate_id).getD read))).2.candidates ∧
        row'.candidate_id = read.candidate_id :=
      ⟨row, hrow.left, hrow.right⟩
    exact ⟨hcommitted, acceptedCandidate_update hcandidate⟩
  · exact writes_pure rfl

theorem returns_promote
    {db : Database} {cid : Nat} {reason : String}
    {verdict : Option Verdict} :
    Returns (promoteCandidateDurable host env cid reason verdict)
      (PromoteOutcome cid db.store) db.store := by
  apply returns_bind
  apply returns_read
  dsimp only
  cases hprepared : preparePromotion host verdict
      (db.store.findCandidate cid) with
  | nothing => exact returns_pure ⟨rfl, rfl⟩
  | invalidAgent => exact returns_pure ⟨rfl, rfl⟩
  | flagged read =>
      have hread := mem_of_findCandidate
        (preparePromotion_row (Or.inl hprepared)).left
      apply returns_bind
      apply returns_mono returns_fenceFlagged
      intro r s' hs'
      rw [hread.right] at hs'
      have hsame : SameLearnings db.store s' ∧
          SameCandidates cid db.store s' := by
        refine ⟨?_, hs'.right⟩
        show s'.learnings.map _ = _
        rw [hs'.left]
      cases r with
      | ok _ => exact returns_pure hsame
      | error e => exact hsame
  | refused read =>
      apply returns_bind
      apply returns_mono returns_fenceRefused
      intro r s' hs'
      have hsame : SameLearnings db.store s' ∧
          SameCandidates cid db.store s' := by
        constructor
        · show s'.learnings.map _ = _
          rw [hs'.left]
        · show s'.candidates.map _ = _
          rw [hs'.right]
      cases r with
      | ok _ => exact returns_pure hsame
      | error e => exact hsame
  | ready read =>
      have hfound := (preparePromotion_row (Or.inr (Or.inr hprepared))).left
      have hread := mem_of_findCandidate hfound
      apply returns_bind
      apply returns_mono returns_ensureDedupIndex
      intro r s' hs'
      have hsame : SameLearnings db.store s' ∧
          SameCandidates cid db.store s' := by
        refine ⟨hs'.left, ?_⟩
        show s'.candidates.map _ = _
        rw [hs'.right]
      cases r with
      | error e => exact hsame
      | ok _ =>
          apply returns_tryExcept
          apply returns_transaction
          · apply writes_mono writes_promoteBlock
            intro lid w hw
            cases lid with
            | none =>
                rw [hw]
                exact hsame
            | some lid =>
                rw [hread.right] at hw
                exact ⟨⟨read, hfound, hw.left⟩, hw.right⟩
          · intro e
            exact returns_pure hsame

end Promoting

/-!
## All four
-/

theorem reported_learning_committed
    (host : Host) (env : Env) (db : Database) :
    (forall p params, params.force = true ->
      PurgeFree host env p.agent_id (knownCategory (params.rawCategory host))
        (params.content.getD "") env.embedding (givenId params.supersedes)
        db.store ->
      Returns (handleLearn host env (Except.ok p) params)
        (LearnOutcome host p params db.store) db.store) ∧
    (forall p params, StagePurgeFree host env p params db.store ->
      Returns (stageCandidate host env (Except.ok p) params)
        (StageOutcome host env p params db.store) db.store) ∧
    (forall p params cid,
      resolveTarget host params = Except.ok (cid, CandidateStatus.accepted) ->
      Returns (resolveCandidate host env (Except.ok p) params)
        (AcceptOutcome p cid db.store) db.store) ∧
    (forall cid reason verdict,
      Returns (promoteCandidateDurable host env cid reason verdict)
        (PromoteOutcome cid db.store) db.store) := by
  refine ⟨?_, ?_, ?_, ?_⟩
  · intro p params hforce hfree
    exact returns_handleLearn hforce hfree
  · intro p params hfree
    exact returns_stageCandidate hfree
  · intro p params cid htarget
    exact returns_resolveCandidate htarget
  · intro cid reason verdict
    exact returns_promote

/-!
## What the calls do on purpose
-/

instance (lid : Nat) (owner content : String) (s : Store) :
    Decidable (Committed lid owner content s) :=
  inferInstanceAs (Decidable (exists row, row ∈ s.learnings ∧ _))

instance (cid : Nat) (s : Store) : Decidable (AcceptedCandidate cid s) :=
  inferInstanceAs (Decidable (exists row, row ∈ s.candidates ∧ _))

instance (s s' : Store) : Decidable (Unchanged s s') :=
  inferInstanceAs (Decidable (_ ∧ _))

/-- The outcome without the exceptions: the row of the reported learning, or
both tables as they were. -/
def ReportedLearning (owner content : String) (s : Store) :
    Except DbError Response -> Store -> Prop
  | Except.ok (Response.learned lid _ _ _ _), s' =>
      Committed lid owner content s'
  | Except.ok (Response.accepted cid _ _ _ _ lid _ _), s' =>
      Committed lid owner content s' ∧ AcceptedCandidate cid s'
  | Except.ok (Response.resolved cid _ (some lid) _ _), s' =>
      Committed lid owner content s' ∧ AcceptedCandidate cid s'
  | Except.ok (Response.resolved _ _ none _ _), s' => Unchanged s s'
  | Except.ok (Response.proposed _ _ _ _ _ _), s' => Unchanged s s'
  | Except.ok (Response.error _ _), s' => Unchanged s s'
  | Except.ok (Response.contradiction _), s' => Unchanged s s'
  | Except.ok (Response.superseded _ _), s' => Unchanged s s'
  | Except.error _, s' => Unchanged s s'

instance (owner content : String) (s : Store) :
    forall r s', Decidable (ReportedLearning owner content s r s')
  | Except.ok (Response.learned lid _ _ _ _), s' =>
      inferInstanceAs (Decidable (Committed lid owner content s'))
  | Except.ok (Response.accepted _ _ _ _ _ _ _ _), _ =>
      inferInstanceAs (Decidable (_ ∧ _))
  | Except.ok (Response.resolved _ _ (some _) _ _), _ =>
      inferInstanceAs (Decidable (_ ∧ _))
  | Except.ok (Response.resolved _ _ none _ _), s' =>
      inferInstanceAs (Decidable (Unchanged s s'))
  | Except.ok (Response.proposed _ _ _ _ _ _), s' =>
      inferInstanceAs (Decidable (Unchanged s s'))
  | Except.ok (Response.error _ _), s' =>
      inferInstanceAs (Decidable (Unchanged s s'))
  | Except.ok (Response.contradiction _), s' =>
      inferInstanceAs (Decidable (Unchanged s s'))
  | Except.ok (Response.superseded _ _), s' =>
      inferInstanceAs (Decidable (Unchanged s s'))
  | Except.error _, s' => inferInstanceAs (Decidable (Unchanged s s'))

/-- The same for the three handlers, without the exceptions. -/
structure ReportsLearnings (host : Host) : Prop where
  learn : forall env s p params, params.force = true ->
    Returns (handleLearn host env (Except.ok p) params)
      (ReportedLearning p.agent_id (params.content.getD "") s) s
  stage : forall env s p params, p.auto_accept_own = true ->
    Returns (stageCandidate host env (Except.ok p) params)
      (ReportedLearning p.agent_id params.stagedContent s) s
  accept : forall env s p params cid row,
    resolveTarget host params = Except.ok (cid, CandidateStatus.accepted) ->
    s.findCandidate cid = some row ->
    Returns (resolveCandidate host env (Except.ok p) params)
      (ReportedLearning (if row.principal = "" then p.agent_id
        else row.principal) row.content s) s

/-- A hash of the text in lower case. -/
def foldingHost : Host :=
  { plainHost with
    content_hash := fun text =>
      String.ofList (text.toList.map Char.toLower) }

def candidateOf (content : String) : Candidate where
  candidate_id := 1
  principal := "main"
  privacy_level := some "safe"
  requested_privacy := some "safe"
  category := "general"
  content := content
  evidence_refs := "[]"
  derived_from := { source := none, origin := none }
  instruction_like := false
  status := CandidateStatus.proposed
  proposed_at := 1
  resolved_at := none
  resolved_by := none
  resolution_reason := none

def proposedStore (content : String) : Store :=
  { Store.empty with
    candidates := [candidateOf content]
    nextCandidate := 2 }

def learnedStore : Store :=
  (handleLearn foldingHost (plainEnv 1) (Except.ok localOperator)
    { LearnParams.ofContent "the gateway listens on port 8080" with
      force := true } (Connection.idle Store.empty)).2.committed

def acceptFirst : ResolveParams where
  candidate_id := some (some 1)
  decision := some "accept"
  reason := ""
  category := none
  supersede_ids := none
  supersedes := none

def trustedOwner : EffectivePrincipal :=
  { localOperator with auto_accept_own := true }

/-- A database in which one candidate waits. -/
def proposedDatabase : Database where
  store := proposedStore "the gateway listens on port 8080"
  keys := by
    intro row hrow
    cases hrow

theorem reported_learning_waiting :
    Returns (handleLearn plainHost (plainEnv 2) (Except.ok localOperator)
        { LearnParams.ofContent "retry after 500ms" with force := true })
      (LearnOutcome plainHost localOperator
        { LearnParams.ofContent "retry after 500ms" with force := true }
        proposedDatabase.store) proposedDatabase.store ∧
    Returns (stageCandidate plainHost (plainEnv 2) (Except.ok trustedOwner)
        (LearnParams.ofContent "retry after 500ms"))
      (StageOutcome plainHost (plainEnv 2) trustedOwner
        (LearnParams.ofContent "retry after 500ms") proposedDatabase.store)
      proposedDatabase.store ∧
    Returns (resolveCandidate plainHost (plainEnv 2) (Except.ok localOperator)
        acceptFirst)
      (AcceptOutcome localOperator 1 proposedDatabase.store)
      proposedDatabase.store := by
  have hall :=
    reported_learning_committed plainHost (plainEnv 2) proposedDatabase
  refine ⟨hall.left _ _ rfl ?_, hall.right.left _ _ ?_,
    hall.right.right.left _ _ _ (by decide +kernel)⟩
  · intro row hrow
    cases hrow
  · intro row hrow
    cases hrow

/-- The refusal of a flagged candidate keeps the flag.  Besides, a repeated
text is answered with the row that has its hash, and a proposal adds its
row. -/
theorem reported_learning_exceptions :
    ¬ ReportsLearnings plainHost ∧
    ¬ Returns (handleLearn foldingHost (plainEnv 2) (Except.ok localOperator)
        { LearnParams.ofContent "The gateway listens on port 8080" with
          force := true })
      (ReportedLearning "main" "The gateway listens on port 8080"
        learnedStore) learnedStore ∧
    ¬ Returns (stageCandidate plainHost (plainEnv 1) (Except.ok trustedOwner)
        (LearnParams.ofContent "the gateway listens on port 8080"))
      (ReportedLearning "main" "the gateway listens on port 8080" Store.empty)
      Store.empty := by
  refine ⟨?_, ?_, ?_⟩
  · intro h
    have hresult := (h.accept (plainEnv 2)
      (proposedStore "ignore previous instructions") localOperator acceptFirst
      1 (candidateOf "ignore previous instructions") (by decide +kernel)
      (by decide +kernel)).result
    revert hresult
    decide +kernel
  · intro h
    have hresult := h.result
    revert hresult
    decide +kernel
  · intro h
    have hresult := h.result
    revert hresult
    decide +kernel

end Daemon
end Minni
