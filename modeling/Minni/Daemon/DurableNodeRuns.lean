import Minni.Daemon.DurableNodeLaw

/-!
# Runs of durable documents

Learnings are committed, stored without a mapping, superseded, retired and
purged in any order.  As long as each step is harmless, every document is
served and unmarked exactly while an active learning backs it.
-/

namespace Minni
namespace Daemon

open Foundation

section Runs

variable {host : NodeHost}

/-!
## The node of an active learning
-/

theorem keepsPlace_kind :
    KeepsPlace fun doc => { doc with memory_kind := some "learning" } where
  doc_id := fun _ => rfl
  path := fun _ => rfl
  agent := fun _ _ _ _ howner => howner

theorem keepsPlace_reopened :
    KeepsPlace fun doc =>
      { doc with
        page_status := some "accepted"
        superseded_by := none } where
  doc_id := fun _ => rfl
  path := fun _ => rfl
  agent := fun _ _ _ _ howner => howner

/-- What a node needs before a learning is mapped to it: the other documents are
in order, and its own mark is reopened or its own. -/
structure ReadyForNode (host : NodeHost) (s : NodeStore)
    (row : BackingLearning) (lexists : Bool) : Prop where
  shape : NodeShape s
  stored : row ∈ s.learnings
  active : row.active = true
  content : row.content ≠ ""
  others : forall doc, doc ∈ s.documents ->
    doc.path ≠ DocPath.durable row.agent_id row.content ->
    DocSound host s doc
  mark : forall doc, doc ∈ s.documents ->
    doc.path = DocPath.durable row.agent_id row.content ->
    doc.page_status = some "superseded" ->
    (host.durable_metadata row.content).1 = "superseded" ∨
      s.reopens host doc row.learning_id row.agent_id row.content lexists =
        true

theorem others_updateDocument {s : NodeStore} {path : DocPath}
    (h : NodeShape s)
    (hothers : forall doc, doc ∈ s.documents -> doc.path ≠ path ->
      DocSound host s doc)
    {doc : NodeDocument} (hdoc : doc ∈ s.documents) (hpath : doc.path = path)
    {f : NodeDocument -> NodeDocument} (hf : KeepsPlace f) :
    forall other, other ∈ (s.updateDocument doc.doc_id f).documents ->
      other.path ≠ path ->
      DocSound host (s.updateDocument doc.doc_id f) other := by
  intro other hother hne
  rcases mem_updateDocument.mp hother with ⟨old, hold, rfl⟩
  by_cases hid : old.doc_id = doc.doc_id
  · rw [if_pos hid, hf.path] at hne
    have hsame := h.document_eq hold hdoc hid
    rw [hsame] at hne
    exact absurd hpath hne
  · rw [if_neg hid] at hne ⊢
    exact (hothers old hold hne).congr rfl rfl

/-- Mapping after the document itself was changed. -/
theorem nodeSound_of_update_mapping {s : NodeStore} (h : NodeShape s)
    {row : BackingLearning} {doc : NodeDocument}
    (hrow : row ∈ s.learnings) (hactive : row.active = true)
    (hdoc : doc ∈ s.documents)
    (hpath : doc.path = DocPath.durable row.agent_id row.content)
    {f : NodeDocument -> NodeDocument} (hf : KeepsPlace f)
    (hmark : (f doc).page_status = some "superseded" ->
      (host.durable_metadata row.content).1 = "superseded")
    (hothers : forall other, other ∈ s.documents ->
      other.path ≠ DocPath.durable row.agent_id row.content ->
      DocSound host s other) :
    NodeSound host ((s.updateDocument doc.doc_id f).addMapping
      { learning_id := row.learning_id
        doc_id := doc.doc_id }) := by
  have hnew : f doc ∈ (s.updateDocument doc.doc_id f).documents := by
    apply mem_updateDocument.mpr
    exact ⟨doc, hdoc, by rw [if_pos rfl]⟩
  have hmapped := @nodeSound_of_mapping host _
    (h.updateDocument hf doc.doc_id) _ _ hrow hactive hnew
    (by rw [hf.path, hpath]) hmark
    (others_updateDocument h hothers hdoc hpath hf)
  rw [hf.doc_id] at hmapped
  exact hmapped

theorem updateDocument_twice (s : NodeStore) (doc_id : Nat)
    {f : NodeDocument -> NodeDocument} (hf : KeepsPlace f)
    (g : NodeDocument -> NodeDocument) :
    (s.updateDocument doc_id f).updateDocument doc_id g =
      s.updateDocument doc_id fun doc => g (f doc) := by
  simp only [NodeStore.updateDocument, List.map_map]
  congr 1
  apply List.map_congr_left
  intro doc _
  by_cases hid : doc.doc_id = doc_id
  · simp [hid, hf.doc_id]
  · simp [hid]

/-- A document that is not at a path yet is unmapped and in order. -/
theorem docSound_of_unmapped {s : NodeStore} {doc : NodeDocument}
    (hmapped : s.mapped doc.doc_id = false)
    (hmark : forall agent_id content,
      doc.path = DocPath.durable agent_id content ->
      doc.page_status = some "superseded" ->
      (host.durable_metadata content).1 = "superseded") :
    DocSound host s doc := by
  constructor
  · intro agent_id content _ hm
    rw [hmapped] at hm
    cases hm
  · intro agent_id content hpath hstatus
    exact Or.inl (hmark agent_id content hpath hstatus)

/-- `ensure_canonical_learning_node` for an active learning. -/
theorem nodeSound_ensure {s : NodeStore} {row : BackingLearning}
    {lexists : Bool} (h : ReadyForNode host s row lexists) :
    NodeSound host (s.ensureCanonicalLearningNode host row.learning_id
      row.agent_id row.content lexists) := by
  have hgiven : ¬ (row.learning_id = 0 ∨ row.agent_id = "" ∨
      row.content = "") := by
    intro hmissing
    rcases hmissing with hid | hagent | hcontent
    · exact h.shape.nonzero row h.stored hid
    · exact h.shape.named row h.stored hagent
    · exact h.content hcontent
  unfold NodeStore.ensureCanonicalLearningNode
  rw [if_neg (by simpa [or_assoc] using hgiven)]
  cases hdoc : s.documentAt (DocPath.durable row.agent_id row.content) with
  | none =>
      have hfresh : forall other, other ∈ s.documents ->
          other.path ≠ DocPath.durable row.agent_id row.content := by
        intro other hother
        exact documentAt_none hdoc hother
      exact nodeSound_of_mapping (s := s.addDocument
          { doc_id := s.next_doc_id
            path := DocPath.durable row.agent_id row.content
            agent := row.agent_id
            page_status := some (host.durable_metadata row.content).1
            privacy_level := some (host.durable_metadata row.content).2
            superseded_by := none
            memory_kind := some "learning" })
        (h.shape.addDocument rfl hfresh (by
          intro agent_id content hpath
          injection hpath))
        h.stored h.active (mem_addDocument.mpr (Or.inr rfl)) rfl
        (by
          intro hstatus
          injection hstatus)
        (by
          intro other hother hne
          rcases mem_addDocument.mp hother with hold | rfl
          · exact (h.others other hold hne).congr rfl rfl
          · exact absurd rfl hne)
  | some doc =>
      rcases documentAt_some hdoc with ⟨hmem, hpath⟩
      have howner := h.shape.owned doc hmem _ _ hpath
      simp only [howner, ne_eq, not_true_eq_false, if_false]
      cases hopen : s.reopens host doc row.learning_id row.agent_id
          row.content lexists with
      | true =>
          rw [if_pos rfl, updateDocument_twice s doc.doc_id
            keepsPlace_reopened]
          exact nodeSound_of_update_mapping h.shape h.stored h.active hmem
            hpath
            { doc_id := fun _ => rfl
              path := fun _ => rfl
              agent := fun _ _ _ _ hagent => hagent }
            (by
              intro hstatus
              injection hstatus with htext
              exact absurd htext (by decide))
            h.others
      | false =>
          rw [if_neg (by simp)]
          exact nodeSound_of_update_mapping h.shape h.stored h.active hmem
            hpath keepsPlace_kind
            (by
              intro hstatus
              rcases h.mark doc hmem hpath hstatus with hown | hreopens
              · exact hown
              · rw [hopen] at hreopens
                cases hreopens)
            h.others

theorem ensure_of_no_content (s : NodeStore) (learning_id : Nat)
    (agent_id : String) (lexists : Bool) :
    s.ensureCanonicalLearningNode host learning_id agent_id "" lexists =
      s := by
  unfold NodeStore.ensureCanonicalLearningNode
  rw [if_pos (by simp)]

theorem nodeSound_repair {s : NodeStore} (h : NodeSound host s)
    (learning_id : Nat) (lexists : Bool) :
    NodeSound host (s.repair host learning_id lexists) := by
  unfold NodeStore.repair
  cases hfind : s.learnings.find? fun row =>
      decide (row.learning_id = learning_id) with
  | none => exact h
  | some row =>
      have hrow := List.mem_of_find?_eq_some hfind
      have hid : row.learning_id = learning_id := by
        simpa using List.find?_some hfind
      cases hactive : row.active with
      | false =>
          simp only [hactive]
          exact h
      | true =>
          have hready : (forall doc, doc ∈ s.documents ->
              doc.path = DocPath.durable row.agent_id row.content ->
              doc.page_status ≠ some "superseded") ->
              NodeSound host (s.ensureCanonicalLearningNode host learning_id
                row.agent_id row.content lexists) := by
            intro hopen
            by_cases hcontent : row.content = ""
            · rw [hcontent, ensure_of_no_content]
              exact h
            · rw [← hid]
              apply nodeSound_ensure
              constructor
              · exact h.shape
              · exact hrow
              · exact hactive
              · exact hcontent
              · intro doc hdoc _
                exact h.documents doc hdoc
              · intro doc hdoc hpath hstatus
                exact absurd hstatus (hopen doc hdoc hpath)
          simp only [hactive, Bool.not_true, Bool.false_eq_true, if_false]
          cases hat : s.documentAt
              (DocPath.durable row.agent_id row.content) with
          | none =>
              apply hready
              intro doc hdoc hpath
              exact absurd hpath (documentAt_none hat hdoc)
          | some found =>
              rcases documentAt_some hat with ⟨hfound, hfoundPath⟩
              cases hclosed : projectionRowClosed found.page_status
                  found.privacy_level with
              | true =>
                  simp only [hclosed, if_true]
                  exact h
              | false =>
                  simp only [hclosed, Bool.false_eq_true, if_false]
                  apply hready
                  intro doc hdoc hpath hstatus
                  have hsame := h.shape.document_eq_of_path hdoc hfound
                    (hpath.trans hfoundPath.symm)
                  rw [hsame] at hstatus
                  rw [hstatus] at hclosed
                  simp [projectionRowClosed, closedProjectionStatuses] at hclosed

/-!
## Commits
-/

/-- The state in which a marked document is opened again by a commit: nothing
but the aggregate of its ended learnings closed it. -/
structure Reopenable (host : NodeHost) (s : NodeStore) (doc : NodeDocument)
    (agent_id content : String) (supersedes : Option Nat) (lexists : Bool) :
    Prop where
  unblocked : doc.privacy_level ≠ some "blocked"
  readable : projectionRowClosed (some (host.durable_metadata content).1)
    (some (host.durable_metadata content).2) = false
  fileless : lexists = false
  status : ((s.recordLearning agent_id content supersedes).nodeState
    doc.doc_id).status = some "superseded"
  successor : ((s.recordLearning agent_id content supersedes).nodeState
    doc.doc_id).successor = doc.superseded_by

theorem recordLearning_links (s : NodeStore) (agent_id content : String)
    (supersedes : Option Nat) :
    (s.recordLearning agent_id content supersedes).learning_documents =
      s.learning_documents := by
  cases supersedes <;> rfl

theorem recordLearning_documents (s : NodeStore) (agent_id content : String)
    (supersedes : Option Nat) :
    (s.recordLearning agent_id content supersedes).documents =
      s.documents := by
  cases supersedes <;> rfl

/-- The learning as a commit stores it. -/
def newLearning (s : NodeStore) (agent_id content : String) : BackingLearning :=
  { learning_id := s.next_learning_id
    agent_id := agent_id
    content := content
    status := some LearningStatus.active
    superseded_by := none }

theorem mem_recordLearning {s : NodeStore} {agent_id content : String}
    {supersedes : Option Nat} (hnew : supersedes ≠ some s.next_learning_id) :
    newLearning s agent_id content ∈
      (s.recordLearning agent_id content supersedes).learnings := by
  have hmem : newLearning s agent_id content ∈
      (s.insertLearning agent_id content).learnings :=
    mem_insertLearning.mpr (Or.inr rfl)
  cases supersedes with
  | none => exact hmem
  | some old =>
      change newLearning s agent_id content ∈
        (((s.insertLearning agent_id content).updateLearning old fun row =>
          { row with superseded_by := some (s.next_learning_id : Int) })
            ).learnings
      rw [updateLearning_eq]
      apply mem_endWhere.mpr
      refine ⟨_, hmem, ?_⟩
      rw [if_neg]
      intro hold
      have hid : s.next_learning_id = old := of_decide_eq_true hold
      exact hnew (by rw [hid])

theorem NodeShape.recordLearning {s : NodeStore} (h : NodeShape s)
    {agent_id : String} (content : String) (supersedes : Option Nat)
    (hagent : agent_id ≠ "") :
    NodeShape (s.recordLearning agent_id content supersedes) := by
  cases supersedes with
  | none => exact h.insertLearning content hagent
  | some old =>
      change NodeShape ((s.insertLearning agent_id content).updateLearning old
        fun row =>
          { row with superseded_by := some (s.next_learning_id : Int) })
      rw [updateLearning_eq]
      exact (h.insertLearning content hagent).endWhere (ends_supersede _)

theorem KeepsMapped.insertLearning {s : NodeStore}
    {ends : BackingLearning -> Bool} {doc : NodeDocument}
    (h : KeepsMapped s ends doc) {agent_id content : String}
    (hother : doc.path ≠ DocPath.durable agent_id content) :
    KeepsMapped (s.insertLearning agent_id content) ends doc := by
  intro owner text hpath hm hleft
  rcases hleft with ⟨row, hrow, howner, htext, hactive, hends⟩
  rcases mem_insertLearning.mp hrow with hold | rfl
  · rcases h owner text hpath hm
      ⟨row, hold, howner, htext, hactive, hends⟩ with ⟨kept, hkept, hfacts⟩
    rcases NodeStore.mem_members.mp hkept with ⟨hstored, hlink⟩
    exact ⟨kept, NodeStore.mem_members.mpr
      ⟨mem_insertLearning.mpr (Or.inl hstored), hlink⟩, hfacts⟩
  · rw [← howner, ← htext] at hpath
    exact absurd hpath hother

theorem DocSound.recordLearning {s : NodeStore} {doc : NodeDocument}
    (h : DocSound host s doc) (hshape : NodeShape s)
    {agent_id content : String} {supersedes : Option Nat}
    (hother : doc.path ≠ DocPath.durable agent_id content)
    (hkeeps : forall old, supersedes = some old ->
      KeepsMapped s (isLearning old) doc) :
    DocSound host (s.recordLearning agent_id content supersedes) doc := by
  cases supersedes with
  | none => exact h.insertLearning hshape hother
  | some old =>
      change DocSound host ((s.insertLearning agent_id content).updateLearning
        old fun row =>
          { row with superseded_by := some (s.next_learning_id : Int) }) doc
      rw [updateLearning_eq]
      exact (h.insertLearning hshape hother).endWhere (ends_supersede _)
        ((hkeeps old rfl).insertLearning hother)

theorem reopens_of_reopenable {s : NodeStore} (h : NodeShape s)
    {doc : NodeDocument} {agent_id content : String}
    {supersedes : Option Nat} {lexists : Bool}
    (hnew : supersedes ≠ some s.next_learning_id)
    (hmark : doc.page_status = some "superseded")
    (hopen : Reopenable host s doc agent_id content supersedes lexists) :
    (s.recordLearning agent_id content supersedes).reopens host doc
      s.next_learning_id agent_id content lexists = true := by
  rcases NodeStore.nodeState_status hopen.status with ⟨hmapped, hserved⟩
  have hunlinked : NodeMapping.mk s.next_learning_id doc.doc_id ∉
      (s.recordLearning agent_id content supersedes).learning_documents := by
    rw [recordLearning_links]
    exact h.unlinked doc.doc_id
  have hstored : ((s.recordLearning agent_id content supersedes).learnings.any
      fun row => row.learning_id = s.next_learning_id &&
        row.agent_id = agent_id && row.content = content && row.active) =
      true := by
    rw [List.any_eq_true]
    refine ⟨_, mem_recordLearning hnew, ?_⟩
    simp [newLearning, BackingLearning.active, openLearningStatus]
  unfold NodeStore.reopens
  simp only [hmark, hopen.readable, hopen.fileless, hopen.status,
    hopen.successor, hstored, NodeStore.nodeState_mapped, hmapped,
    NodeStore.nodeState_active, hserved]
  simp [hopen.unblocked, hunlinked]

/-- When a commit leaves every document in order. -/
structure HarmlessCommit (host : NodeHost) (s : NodeStore)
    (agent_id content : String) (supersedes : Option Nat) (lexists : Bool) :
    Prop where
  named : agent_id ≠ ""
  given : content ≠ ""
  earlier : supersedes ≠ some s.next_learning_id
  keeps : forall old, supersedes = some old ->
    forall doc, doc ∈ s.documents ->
      doc.path ≠ DocPath.durable agent_id content ->
      KeepsMapped s (isLearning old) doc
  reopens : forall doc, doc ∈ s.documents ->
    doc.path = DocPath.durable agent_id content ->
    doc.page_status = some "superseded" ->
    (host.durable_metadata content).1 = "superseded" ∨
      Reopenable host s doc agent_id content supersedes lexists

theorem nodeSound_commit {s : NodeStore} (h : NodeSound host s)
    {agent_id content : String} {supersedes : Option Nat} {lexists : Bool}
    (hcommit :
      HarmlessCommit host s agent_id content supersedes lexists) :
    NodeSound host (s.commit host agent_id content supersedes lexists) := by
  have hready : ReadyForNode host
      (s.recordLearning agent_id content supersedes)
      (newLearning s agent_id content) lexists := by
    constructor
    · exact h.shape.recordLearning content supersedes hcommit.named
    · exact mem_recordLearning hcommit.earlier
    · rfl
    · exact hcommit.given
    · intro doc hdoc hpath
      rw [recordLearning_documents] at hdoc
      apply (h.documents doc hdoc).recordLearning h.shape hpath
      intro old hold
      exact hcommit.keeps old hold doc hdoc hpath
    · intro doc hdoc hpath hstatus
      rw [recordLearning_documents] at hdoc
      rcases hcommit.reopens doc hdoc hpath hstatus with hown | hopen
      · exact Or.inl hown
      · exact Or.inr
          (reopens_of_reopenable h.shape hcommit.earlier hstatus hopen)
  exact nodeSound_ensure hready

/-!
## Projection and purge
-/

theorem nodeSound_index {s : NodeStore} (h : NodeSound host s)
    (agent_id content : String) :
    NodeSound host (s.indexDurableDocument host agent_id content) := by
  unfold NodeStore.indexDurableDocument
  cases hat : s.documentAt (DocPath.durable agent_id content) with
  | none =>
      have hfresh : forall other, other ∈ s.documents ->
          other.path ≠ DocPath.durable agent_id content := by
        intro other hother
        exact documentAt_none hat hother
      constructor
      · apply h.shape.addDocument rfl hfresh
        intro owner text hpath
        injection hpath
      · intro doc hdoc
        rcases mem_addDocument.mp hdoc with hold | rfl
        · exact (h.documents doc hold).congr rfl rfl
        · apply docSound_of_unmapped
          · exact h.shape.unmapped_of_next
          · intro owner text hpath hstatus
            injection hpath with _ htext
            rw [← htext]
            injection hstatus
  | some found =>
      rcases documentAt_some hat with ⟨hfound, hpath⟩
      have howner := h.shape.owned found hfound agent_id content hpath
      -- the owner is written again as it is
      have hsame : (s.updateDocument found.doc_id fun row =>
            { row with
              agent := agent_id
              page_status := some (host.durable_metadata content).1
              privacy_level := some (host.durable_metadata content).2 }) =
          s.updateDocument found.doc_id fun row =>
            { row with
              page_status := some (host.durable_metadata content).1
              privacy_level := some (host.durable_metadata content).2 } := by
        unfold NodeStore.updateDocument
        congr 1
        apply List.map_congr_left
        intro doc hdoc
        by_cases hid : doc.doc_id = found.doc_id
        · have hagent : doc.agent = agent_id := by
            rw [h.shape.document_eq hdoc hfound hid]
            exact howner
          simp only [hid, if_true, hagent]
        · rw [if_neg hid, if_neg hid]
      change NodeSound host (s.updateDocument found.doc_id fun row =>
        { row with
          agent := agent_id
          page_status := some (host.durable_metadata content).1
          privacy_level := some (host.durable_metadata content).2 })
      rw [hsame]
      apply h.updateDocument
      · exact
          { doc_id := fun _ => rfl
            path := fun _ => rfl
            agent := fun _ _ _ _ hagent => hagent }
      · intro doc hdoc hid
        have hdocEq := h.shape.document_eq hdoc hfound hid
        constructor
        · intro owner text hpath' hm hb
          exact (h.documents doc hdoc).served owner text hpath' hm hb
        · intro owner text hpath' hstatus
          change doc.path = DocPath.durable owner text at hpath'
          rw [hdocEq, hpath] at hpath'
          injection hpath' with _ htext
          rw [← htext]
          injection hstatus with hown
          exact Or.inl hown

theorem mem_removeDocument {s : NodeStore} {doc_id : Nat}
    {doc : NodeDocument} :
    doc ∈ s.documents.filter (fun row => decide (row.doc_id ≠ doc_id)) <->
      doc ∈ s.documents ∧ doc.doc_id ≠ doc_id := by
  simp

/-- Only a document without a mapping may be deleted. -/
theorem nodeSound_remove {s : NodeStore} (h : NodeSound host s)
    {doc_id : Nat} (hunmapped : s.mapped doc_id = false) :
    NodeSound host
      { s with
        documents := s.documents.filter fun row => row.doc_id ≠ doc_id } := by
  constructor
  · constructor
    · exact h.shape.keyed
    · exact h.shape.known
    · exact h.shape.positive
    · exact h.shape.docKeyed.sublist (List.filter_sublist.map _)
    · intro doc hdoc
      exact h.shape.docKnown doc (mem_removeDocument.mp hdoc).left
    · exact h.shape.paths.sublist (List.filter_sublist.map _)
    · intro doc hdoc
      exact h.shape.owned doc (mem_removeDocument.mp hdoc).left
    · intro link hlink
      rcases h.shape.linked link hlink with
        ⟨row, hrow, doc, hdoc, hrowId, hdocId, hpath⟩
      refine ⟨row, hrow, doc, mem_removeDocument.mpr ⟨hdoc, ?_⟩, hrowId,
        hdocId, hpath⟩
      intro hid
      have hmapped : s.mapped doc_id = true :=
        NodeStore.mapped_iff.mpr ⟨link, hlink, hdocId.symm.trans hid⟩
      rw [hunmapped] at hmapped
      cases hmapped
    · exact h.shape.named
    · exact h.shape.nonzero
  · intro doc hdoc
    exact (h.documents doc (mem_removeDocument.mp hdoc).left).congr rfl rfl

/-- A purge keeps, marks or deletes the document at the path. -/
theorem purge_cases (s : NodeStore) (path : DocPath) :
    s.purgeDurableDocument path = s ∨
      (exists doc, s.documentAt path = some doc ∧
        s.mapped doc.doc_id = true ∧ s.served doc.doc_id = false ∧
        s.purgeDurableDocument path = s.updateDocument doc.doc_id fun row =>
          { row with
            page_status := (s.nodeState doc.doc_id).status
            superseded_by := (s.nodeState doc.doc_id).successor }) ∨
      (exists doc, s.documentAt path = some doc ∧
        s.mapped doc.doc_id = false ∧ doc.memory_kind ≠ some "learning" ∧
        s.purgeDurableDocument path =
          { s with
            documents :=
              s.documents.filter fun row => row.doc_id ≠ doc.doc_id }) := by
  unfold NodeStore.purgeDurableDocument
  cases hat : s.documentAt path with
  | none => exact Or.inl rfl
  | some doc =>
      simp only [NodeStore.nodeState_mapped, NodeStore.nodeState_active]
      cases hmapped : s.mapped doc.doc_id with
      | true =>
          cases hclosed : projectionRowClosed doc.page_status
              doc.privacy_level with
          | true => exact Or.inl (by simp)
          | false =>
              cases hserved : s.served doc.doc_id with
              | true => exact Or.inl (by simp)
              | false =>
                  right
                  left
                  exact ⟨doc, rfl, hmapped, hserved, by simp⟩
      | false =>
          have hserved : s.served doc.doc_id = false := by
            cases hs : s.served doc.doc_id with
            | false => rfl
            | true =>
                rw [NodeStore.mapped_of_served hs] at hmapped
                cases hmapped
          by_cases hkind : doc.memory_kind = some "learning"
          · exact Or.inl (by simp [hkind])
          · right
            right
            exact ⟨doc, rfl, hmapped, hkind, by simp [hkind, hserved]⟩

theorem nodeSound_purge {s : NodeStore} (h : NodeSound host s)
    (path : DocPath) :
    NodeSound host (s.purgeDurableDocument path) := by
  rcases purge_cases s path with hsame | ⟨doc, hat, hm, hs, hmark⟩ |
    ⟨doc, _, hm, _, hremove⟩
  · rw [hsame]
    exact h
  · rcases documentAt_some hat with ⟨hdoc, _⟩
    rw [hmark]
    apply h.updateDocument
    · exact
        { doc_id := fun _ => rfl
          path := fun _ => rfl
          agent := fun _ _ _ _ hagent => hagent }
    · intro other hother hid
      have hsame := h.shape.document_eq hother hdoc hid
      rw [hsame]
      constructor
      · exact (h.documents doc hdoc).served
      · intro owner text hpath _
        right
        constructor
        · exact hm
        · cases hb : s.backed owner text with
          | false => rfl
          | true =>
              rw [(h.documents doc hdoc).served owner text hpath hm hb] at hs
              cases hs
  · rw [hremove]
    exact nodeSound_remove h hm

/-!
## Superseded members
-/

theorem keepsPlace_superseded (new_doc_id : Nat) :
    KeepsPlace fun doc =>
      if doc.page_status = some "accepted" then
        { doc with
          page_status := some "superseded"
          superseded_by := some new_doc_id }
      else doc where
  doc_id := by
    intro doc
    by_cases h : doc.page_status = some "accepted"
    · simp [h]
    · simp [h]
  path := by
    intro doc
    by_cases h : doc.page_status = some "accepted"
    · simp [h]
    · simp [h]
  agent := by
    intro doc agent_id content _ howner
    by_cases h : doc.page_status = some "accepted"
    · simpa [h] using howner
    · simpa [h] using howner

/-- A mapped document that no learning keeps active may be marked. -/
theorem nodeSound_mark {s : NodeStore} (h : NodeSound host s)
    {doc_id new_doc_id : Nat} (hmapped : s.mapped doc_id = true)
    (hserved : s.served doc_id = false) :
    NodeSound host (s.updateDocument doc_id fun doc =>
      if doc.page_status = some "accepted" then
        { doc with
          page_status := some "superseded"
          superseded_by := some new_doc_id }
      else doc) := by
  apply h.updateDocument (keepsPlace_superseded new_doc_id)
  intro doc hdoc hid
  rw [← hid] at hmapped hserved
  by_cases hstatus : doc.page_status = some "accepted"
  · rw [if_pos hstatus]
    constructor
    · exact (h.documents doc hdoc).served
    · intro agent_id content hpath _
      right
      constructor
      · exact hmapped
      · cases hb : s.backed agent_id content with
        | false => rfl
        | true =>
            rw [(h.documents doc hdoc).served agent_id content hpath hmapped
              hb] at hserved
            cases hserved
  · rw [if_neg hstatus]
    exact h.documents doc hdoc

theorem nodeSound_retireMembers {s : NodeStore} (h : NodeSound host s)
    {doc_id : Nat} {learning_ids : List Nat}
    {new_learning_id new_doc_id : Nat}
    (hmembers : forall learning_id, learning_id ∈ learning_ids ->
      NodeMapping.mk learning_id doc_id ∈ s.learning_documents)
    (hkeeps : forall doc, doc ∈ s.documents ->
      KeepsMapped s (NodeStore.retiresMember learning_ids) doc) :
    NodeSound host (s.retireSupersededMembers doc_id learning_ids
      new_learning_id new_doc_id) := by
  have hretired : NodeSound host
      (s.endWhere (NodeStore.retiresMember learning_ids) fun row =>
        { row with
          status := some LearningStatus.superseded
          superseded_by := some (new_learning_id : Int) }) :=
    h.endWhere (ends_member _) hkeeps
  unfold NodeStore.retireSupersededMembers
  by_cases hflip : (s.learnings.any (NodeStore.retiresMember learning_ids) &&
      !(s.endWhere (NodeStore.retiresMember learning_ids) fun row =>
        { row with
          status := some LearningStatus.superseded
          superseded_by := some (new_learning_id : Int) }).served doc_id) =
      true
  · refine (if_pos hflip).symm ▸ ?_
    rw [Bool.and_eq_true, Bool.not_eq_true'] at hflip
    rcases List.any_eq_true.mp hflip.left with ⟨row, _, hends⟩
    have hlisted : row.learning_id ∈ learning_ids := by
      unfold NodeStore.retiresMember at hends
      rw [Bool.and_eq_true] at hends
      simpa using hends.left
    apply nodeSound_mark hretired
    · exact NodeStore.mapped_iff.mpr ⟨_, hmembers _ hlisted, rfl⟩
    · exact hflip.right
  · refine (if_neg hflip).symm ▸ ?_
    exact hretired

/-!
## Runs
-/

inductive NodeEvent where
  /-- A learning that is stored without a mapping. -/
  | store (agent_id content : String)
  | commit (agent_id content : String) (supersedes : Option Nat)
      (lexists : Bool)
  | repair (learning_id : Nat) (lexists : Bool)
  | supersede (old : Nat) (successor : Int)
  | retire (learning_id : Nat) (how : Retirement)
  | retireMembers (doc_id : Nat) (learning_ids : List Nat)
      (new_learning_id new_doc_id : Nat)
  | project (agent_id content : String)
  | purge (path : DocPath)

/-- The members that a commit retires were read in its own transaction. -/
def NodeEvent.planned (s : NodeStore) : NodeEvent -> Bool
  | NodeEvent.retireMembers doc_id learning_ids _ _ =>
      learning_ids.all fun learning_id =>
        s.learning_documents.contains
          { learning_id := learning_id
            doc_id := doc_id }
  | _ => true

def NodeEvent.apply (host : NodeHost) (s : NodeStore) :
    NodeEvent -> NodeStore
  | NodeEvent.store agent_id content => s.insertLearning agent_id content
  | NodeEvent.commit agent_id content supersedes lexists =>
      s.commit host agent_id content supersedes lexists
  | NodeEvent.repair learning_id lexists => s.repair host learning_id lexists
  | NodeEvent.supersede old successor => s.supersede old successor
  | NodeEvent.retire learning_id how => s.retire learning_id how
  | NodeEvent.retireMembers doc_id learning_ids new_learning_id new_doc_id =>
      s.retireSupersededMembers doc_id learning_ids new_learning_id new_doc_id
  | NodeEvent.project agent_id content =>
      s.indexDurableDocument host agent_id content
  | NodeEvent.purge path => s.purgeDurableDocument path

def nodeNext (host : NodeHost) (s : NodeStore) (e : NodeEvent) :
    Option NodeStore :=
  if e.planned s then some (e.apply host s) else none

def DurableNodes (host : NodeHost) : TransitionSystem NodeStore NodeEvent :=
  TransitionSystem.OfNext (fun s => s = NodeStore.empty) (nodeNext host)

/-- No document is left mapped to ended learnings only while another active
learning has its owner and content, and none is deleted under one. -/
def NodeEvent.Harmless (host : NodeHost) (s : NodeStore) : NodeEvent -> Prop
  | NodeEvent.store agent_id content =>
      agent_id ≠ "" ∧ forall doc, doc ∈ s.documents ->
        doc.path = DocPath.durable agent_id content ->
        s.mapped doc.doc_id = true -> s.served doc.doc_id = true
  | NodeEvent.commit agent_id content supersedes lexists =>
      HarmlessCommit host s agent_id content supersedes lexists
  | NodeEvent.repair _ _ => True
  | NodeEvent.supersede old _ =>
      forall doc, doc ∈ s.documents -> KeepsMapped s (isLearning old) doc
  | NodeEvent.retire learning_id _ =>
      forall doc, doc ∈ s.documents ->
        KeepsMapped s (isLearning learning_id) doc
  | NodeEvent.retireMembers _ learning_ids _ _ =>
      forall doc, doc ∈ s.documents ->
        KeepsMapped s (NodeStore.retiresMember learning_ids) doc
  | NodeEvent.project _ _ => True
  | NodeEvent.purge path =>
      forall doc, doc ∈ s.documents -> doc.path = path ->
        s.mapped doc.doc_id = false -> doc.memory_kind ≠ some "learning" ->
        forall agent_id content, path = DocPath.durable agent_id content ->
          s.backed agent_id content = false

theorem nodeSound_empty : NodeSound host NodeStore.empty where
  shape := NodeShape.empty
  documents := by simp [NodeStore.empty]

/-- One harmless step keeps every document in order. -/
theorem nodeSound_step {s s' : NodeStore} {e : NodeEvent}
    (h : NodeSound host s) (hharmless : e.Harmless host s)
    (hstep : nodeNext host s e = some s') :
    NodeSound host s' := by
  unfold nodeNext at hstep
  by_cases hplanned : e.planned s = true
  · rw [if_pos hplanned] at hstep
    injection hstep with hs'
    rw [← hs']
    cases e with
    | store agent_id content =>
        exact h.insertLearning hharmless.left hharmless.right
    | commit agent_id content supersedes lexists =>
        exact nodeSound_commit h hharmless
    | repair learning_id lexists =>
        exact nodeSound_repair h learning_id lexists
    | supersede old successor =>
        change NodeSound host (s.updateLearning old fun row =>
          { row with superseded_by := some successor })
        rw [updateLearning_eq]
        exact h.endWhere (ends_supersede successor) hharmless
    | retire learning_id how =>
        change NodeSound host (s.updateLearning learning_id fun row =>
          { row with status := some how.status })
        rw [updateLearning_eq]
        exact h.endWhere (ends_retire how) hharmless
    | retireMembers doc_id learning_ids new_learning_id new_doc_id =>
        apply nodeSound_retireMembers h _ hharmless
        intro learning_id hlisted
        have hlink := List.all_eq_true.mp hplanned learning_id hlisted
        simpa using hlink
    | project agent_id content =>
        exact nodeSound_index h agent_id content
    | purge path =>
        exact nodeSound_purge h path
  · rw [if_neg hplanned] at hstep
    cases hstep

/-!
## What a step deletes
-/

/-- There is a document at the path. -/
def NodeStore.present (s : NodeStore) (path : DocPath) : Prop :=
  exists doc, doc ∈ s.documents ∧ doc.path = path

theorem present_updateDocument {s : NodeStore} {path : DocPath}
    (h : s.present path) {f : NodeDocument -> NodeDocument}
    (hf : KeepsPlace f) (doc_id : Nat) :
    (s.updateDocument doc_id f).present path := by
  rcases h with ⟨doc, hdoc, hpath⟩
  refine ⟨_, mem_updateDocument.mpr ⟨doc, hdoc, rfl⟩, ?_⟩
  by_cases hid : doc.doc_id = doc_id
  · rw [if_pos hid, hf.path]
    exact hpath
  · rw [if_neg hid]
    exact hpath

theorem present_addDocument {s : NodeStore} {path : DocPath}
    (h : s.present path) (doc : NodeDocument) :
    (s.addDocument doc).present path := by
  rcases h with ⟨old, hold, hpath⟩
  exact ⟨old, mem_addDocument.mpr (Or.inl hold), hpath⟩

theorem present_addMapping {s : NodeStore} {path : DocPath}
    (h : s.present path) (link : NodeMapping) :
    (s.addMapping link).present path := by
  unfold NodeStore.present
  rw [addMapping_documents]
  exact h

theorem present_ensure {s : NodeStore} {path : DocPath} (h : s.present path)
    (learning_id : Nat) (agent_id content : String) (lexists : Bool) :
    (s.ensureCanonicalLearningNode host learning_id agent_id content
      lexists).present path := by
  unfold NodeStore.ensureCanonicalLearningNode
  by_cases hmissing : learning_id = 0 || agent_id = "" || content = ""
  · rw [if_pos hmissing]
    exact h
  · rw [if_neg hmissing]
    cases s.documentAt (DocPath.durable agent_id content) with
    | none => exact present_addMapping (present_addDocument h _) _
    | some doc =>
        by_cases howner : doc.agent ≠ agent_id
        · simp only [if_pos howner]
          exact h
        · simp only [if_neg howner]
          apply present_addMapping
          apply present_updateDocument _ keepsPlace_kind
          by_cases hopen : s.reopens host doc learning_id agent_id content
              lexists = true
          · rw [if_pos hopen]
            exact present_updateDocument h keepsPlace_reopened _
          · rw [if_neg hopen]
            exact h

theorem present_index {s : NodeStore} {path : DocPath} (h : s.present path)
    (agent_id content : String) :
    (s.indexDurableDocument host agent_id content).present path := by
  unfold NodeStore.indexDurableDocument
  cases s.documentAt (DocPath.durable agent_id content) with
  | none => exact present_addDocument h _
  | some found =>
      rcases h with ⟨doc, hdoc, hpath⟩
      refine ⟨_, mem_updateDocument.mpr ⟨doc, hdoc, rfl⟩, ?_⟩
      by_cases hid : doc.doc_id = found.doc_id
      · rw [if_pos hid]
        exact hpath
      · rw [if_neg hid]
        exact hpath

theorem present_repair {s : NodeStore} {path : DocPath} (h : s.present path)
    (learning_id : Nat) (lexists : Bool) :
    (s.repair host learning_id lexists).present path := by
  unfold NodeStore.repair
  cases s.learnings.find? fun row =>
      decide (row.learning_id = learning_id) with
  | none => exact h
  | some row =>
      cases hactive : row.active with
      | false =>
          simp only [hactive]
          exact h
      | true =>
          simp only [hactive, Bool.not_true, Bool.false_eq_true, if_false]
          cases s.documentAt (DocPath.durable row.agent_id row.content) with
          | none => exact present_ensure h learning_id _ _ lexists
          | some found =>
              cases hclosed : projectionRowClosed found.page_status
                  found.privacy_level with
              | true =>
                  simp only [hclosed, if_true]
                  exact h
              | false =>
                  simp only [hclosed, Bool.false_eq_true, if_false]
                  exact present_ensure h learning_id _ _ lexists

theorem present_retireMembers {s : NodeStore} {path : DocPath}
    (h : s.present path) (doc_id : Nat) (learning_ids : List Nat)
    (new_learning_id new_doc_id : Nat) :
    (s.retireSupersededMembers doc_id learning_ids new_learning_id
      new_doc_id).present path := by
  have hretired : (s.endWhere (NodeStore.retiresMember learning_ids) fun row =>
      { row with
        status := some LearningStatus.superseded
        superseded_by := some (new_learning_id : Int) }).present path := h
  unfold NodeStore.retireSupersededMembers
  by_cases hflip : (s.learnings.any (NodeStore.retiresMember learning_ids) &&
      !(s.endWhere (NodeStore.retiresMember learning_ids) fun row =>
        { row with
          status := some LearningStatus.superseded
          superseded_by := some (new_learning_id : Int) }).served doc_id) =
      true
  · refine (if_pos hflip).symm ▸ ?_
    exact present_updateDocument hretired (keepsPlace_superseded new_doc_id) _
  · refine (if_neg hflip).symm ▸ ?_
    exact hretired

/-- A purge deletes under no active learning when it is harmless. -/
theorem present_purge {s : NodeStore} (hshape : NodeShape s)
    {path : DocPath} (h : s.present path) (purged : DocPath)
    (hkept : forall doc, doc ∈ s.documents -> doc.path = purged ->
      s.mapped doc.doc_id = false -> doc.memory_kind ≠ some "learning" ->
      path ≠ purged) :
    (s.purgeDurableDocument purged).present path := by
  rcases purge_cases s purged with hsame | ⟨doc, _, _, _, hmark⟩ |
    ⟨doc, hat, hm, hkind, hremove⟩
  · rw [hsame]
    exact h
  · rw [hmark]
    apply present_updateDocument h
    exact
      { doc_id := fun _ => rfl
        path := fun _ => rfl
        agent := fun _ _ _ _ hagent => hagent }
  · rcases documentAt_some hat with ⟨hdoc, hdocPath⟩
    rcases h with ⟨old, hold, hpath⟩
    rw [hremove]
    refine ⟨old, mem_removeDocument.mpr ⟨hold, ?_⟩, hpath⟩
    intro hid
    have hsame := hshape.document_eq hold hdoc hid
    rw [hsame, hdocPath] at hpath
    exact hkept doc hdoc hdocPath hm hkind hpath.symm

/-!
## The recall filter
-/

/-- A hit on the durable document of an owner and a content. -/
structure DurableHit.OfNode (s : NodeStore) (hit : DurableHit)
    (agent_id content : String) : Prop where
  path : hit.path = DocPath.durable agent_id content
  agent : hit.agent = agent_id
  found : forall doc, doc ∈ s.documents -> hit.doc_id = some doc.doc_id ->
    doc.path = hit.path

theorem mem_activeDurablePaths {s : NodeStore} {agents : List String}
    {agent_id content : String} :
    DocPath.durable agent_id content ∈ activeDurablePaths s agents <->
      agent_id ∈ agents ∧ s.backed agent_id content = true := by
  rw [NodeStore.backed_iff]
  unfold activeDurablePaths
  rw [List.mem_map]
  constructor
  · intro h
    rcases h with ⟨row, hrow, hpath⟩
    injection hpath with hagent hcontent
    rw [List.mem_filter, Bool.and_eq_true] at hrow
    rw [← hagent]
    exact ⟨by simpa using hrow.right.left,
      row, hrow.left, rfl, hcontent, hrow.right.right⟩
  · intro h
    rcases h with ⟨hagent, row, hrow, hown, hcontent, hactive⟩
    refine ⟨row, ?_, by rw [hown, hcontent]⟩
    rw [List.mem_filter, Bool.and_eq_true]
    exact ⟨hrow, by simpa [hown] using hagent, hactive⟩

/-- The learnings that a hit without a mapping is kept for. -/
theorem unmapped_hit_iff {s : NodeStore} (h : NodeShape s)
    {after_stat : List DurableHit} {hit : DurableHit}
    {agent_id content : String}
    (hrow : hit ∈ after_stat) (hnode : hit.OfNode s agent_id content)
    (hmapped : hit.isMapped s = false) :
    (activeDurablePaths s (((after_stat.filter fun hit =>
      hit.isDurable && !hit.isMapped s).map DurableHit.agent).filter
        fun agent => agent ≠ "")).contains hit.path = true <->
      s.backed agent_id content = true := by
  rw [List.contains_iff_mem, hnode.path, mem_activeDurablePaths]
  constructor
  · intro hkept
    exact hkept.right
  · intro hbacked
    constructor
    · rcases NodeStore.backed_iff.mp hbacked with
        ⟨row, hlearning, hown, _, _⟩
      have hnamed := h.named row hlearning
      rw [hown] at hnamed
      rw [List.mem_filter, List.mem_map]
      constructor
      · refine ⟨hit, ?_, hnode.agent⟩
        rw [List.mem_filter]
        exact ⟨hrow, by simp [DurableHit.isDurable, hnode.path, hmapped]⟩
      · simpa using hnamed
    · exact hbacked

/-- The file of a durable document is not looked for. -/
theorem mem_after_stat {rows : List DurableHit} {hit : DurableHit}
    {s : NodeStore} {agent_id content : String}
    (hrow : hit ∈ rows) (hnode : hit.OfNode s agent_id content) :
    hit ∈ rows.filter fun hit =>
      match hit.path with
      | DocPath.durable _ _ => true
      | DocPath.other path => !host.fileGone path := by
  rw [List.mem_filter]
  exact ⟨hrow, by rw [hnode.path]⟩

/-- Recall keeps the hits on a durable document exactly while it is backed. -/
theorem filter_iff {s : NodeStore} (h : NodeSound host s)
    {rows : List DurableHit} {hit : DurableHit} {agent_id content : String}
    (hrow : hit ∈ rows) (hnode : hit.OfNode s agent_id content) :
    hit ∈ filterLiveAndActiveCandidates host s false rows <->
      s.backed agent_id content = true := by
  have hdurable : hit.isDurable = true := by
    simp [DurableHit.isDurable, hnode.path]
  have hstat := @mem_after_stat host _ _ _ _ _ hrow hnode
  unfold filterLiveAndActiveCandidates
  simp only [Bool.false_eq_true, if_false]
  rw [List.mem_filter]
  refine (and_iff_right hstat).trans ?_
  simp only [hdurable, Bool.not_true, Bool.false_eq_true, if_false]
  cases hid : hit.doc_id with
  | none =>
      exact unmapped_hit_iff h.shape hstat hnode
        (by simp [DurableHit.isMapped, hid])
  | some doc_id =>
      cases hmapped : s.mapped doc_id with
      | false =>
          simp only [hmapped, Bool.false_eq_true, if_false]
          exact unmapped_hit_iff h.shape hstat hnode
            (by simp [DurableHit.isMapped, hid, hmapped])
      | true =>
          simp only [hmapped, if_true]
          rcases NodeStore.mapped_iff.mp hmapped with ⟨link, hlink, hlinkId⟩
          rcases h.shape.linked link hlink with
            ⟨_, _, doc, hdoc, _, hdocId, _⟩
          have hdocEq : doc.doc_id = doc_id := hdocId.trans hlinkId
          have hpath : doc.path = DocPath.durable agent_id content := by
            rw [← hnode.path]
            apply hnode.found doc hdoc
            rw [hid, hdocEq]
          rw [← hdocEq] at hmapped ⊢
          constructor
          · intro hserved
            exact h.shape.backed_of_served hdoc hpath hserved
          · intro hbacked
            exact (h.documents doc hdoc).served agent_id content hpath hmapped
              hbacked

/-!
## The law
-/

/-- A durable document lives exactly as long as an active learning backs it:
recall keeps it exactly then, and while it is backed nothing marks it but its own
content and no step deletes it. -/
structure DurableLaw (host : NodeHost)
    (T : TransitionSystem NodeStore NodeEvent) (s : NodeStore) : Prop where
  kept : forall rows hit agent_id content,
    hit ∈ rows -> DurableHit.OfNode s hit agent_id content ->
    (hit ∈ filterLiveAndActiveCandidates host s false rows <->
      s.backed agent_id content = true)
  unmarked : forall doc agent_id content,
    doc ∈ s.documents -> doc.path = DocPath.durable agent_id content ->
    s.backed agent_id content = true ->
    doc.page_status = some "superseded" ->
    (host.durable_metadata content).1 = "superseded"
  undeleted : forall e s' agent_id content,
    T.step s e s' ->
    s.present (DocPath.durable agent_id content) ->
    s'.backed agent_id content = true ->
    s'.present (DocPath.durable agent_id content)

/-- A harmless step deletes no document that is backed afterwards. -/
theorem present_step {s s' : NodeStore} {e : NodeEvent}
    (h : NodeSound host s) (hharmless : e.Harmless host s)
    (hstep : nodeNext host s e = some s')
    {agent_id content : String}
    (hpresent : s.present (DocPath.durable agent_id content))
    (hbacked : s'.backed agent_id content = true) :
    s'.present (DocPath.durable agent_id content) := by
  unfold nodeNext at hstep
  by_cases hplanned : e.planned s = true
  · rw [if_pos hplanned] at hstep
    injection hstep with hs'
    rw [← hs'] at hbacked ⊢
    cases e with
    | store owner text => exact hpresent
    | commit owner text supersedes lexists =>
        apply present_ensure
        unfold NodeStore.present
        rw [recordLearning_documents]
        exact hpresent
    | repair learning_id lexists =>
        exact present_repair hpresent learning_id lexists
    | supersede old successor => exact hpresent
    | retire learning_id how => exact hpresent
    | retireMembers doc_id learning_ids new_learning_id new_doc_id =>
        exact present_retireMembers hpresent doc_id learning_ids
          new_learning_id new_doc_id
    | project owner text => exact present_index hpresent owner text
    | purge purged =>
        apply present_purge h.shape hpresent
        intro doc hdoc hpath hm hkind hpurged
        have hunbacked := hharmless doc hdoc hpath hm hkind agent_id content
          hpurged.symm
        have hsame : (s.purgeDurableDocument purged).learnings =
            s.learnings := by
          rcases purge_cases s purged with hkeep | ⟨_, _, _, _, hmark⟩ |
            ⟨_, _, _, _, hremove⟩
          · rw [hkeep]
          · rw [hmark]
            rfl
          · rw [hremove]
        change (s.purgeDurableDocument purged).backed agent_id content =
          true at hbacked
        unfold NodeStore.backed at hbacked hunbacked
        rw [hsame, hunbacked] at hbacked
        cases hbacked
  · rw [if_neg hplanned] at hstep
    cases hstep

theorem nodeSound_reachable {s : NodeStore}
    (hreach : ((DurableNodes host).Restrict
      (NodeEvent.Harmless host)).Reachable s) :
    NodeSound host s := by
  apply TransitionSystem.reachable_induction _ _ hreach
  · intro s0 hinitial
    rw [show s0 = NodeStore.empty from hinitial]
    exact nodeSound_empty
  · intro s0 e s' _ hsound hstep
    exact nodeSound_step hsound hstep.left hstep.right

/-- In every run of harmless steps a durable document lives exactly as long as
an active learning backs it. -/
theorem durable_while_backed {s : NodeStore}
    (hreach : ((DurableNodes host).Restrict
      (NodeEvent.Harmless host)).Reachable s) :
    DurableLaw host ((DurableNodes host).Restrict (NodeEvent.Harmless host))
      s := by
  have hsound := nodeSound_reachable hreach
  constructor
  · intro rows hit agent_id content hrow hnode
    exact filter_iff hsound hrow hnode
  · intro doc agent_id content hdoc hpath hbacked hstatus
    rcases (hsound.documents doc hdoc).marked agent_id content hpath hstatus
      with hown | ⟨_, hunbacked⟩
    · exact hown
    · rw [hbacked] at hunbacked
      cases hunbacked
  · intro e s' agent_id content hstep hpresent hbacked
    exact present_step hsound hstep.left hstep.right hpresent hbacked

/-- Contents without metadata of their own. -/
def plainNodeHost : NodeHost where
  durable_metadata := fun _ => ("accepted", "safe")
  fileGone := fun _ => false

/-- The store with these learnings of one owner and text, their document and the
learnings that are mapped to it. -/
def textStore (learnings : List (Option LearningStatus))
    (documents : List (Option String × Option String)) (mapped : List Nat) :
    NodeStore where
  learnings := learnings.zipIdx.map fun entry =>
    { learning_id := entry.2 + 1
      agent_id := "owner"
      content := "text"
      status := entry.1
      superseded_by := none }
  documents := documents.map fun entry =>
    { doc_id := 1
      path := DocPath.durable "owner" "text"
      agent := "owner"
      page_status := entry.1
      privacy_level := some "safe"
      superseded_by := none
      memory_kind := entry.2 }
  learning_documents := mapped.map fun learning_id =>
    { learning_id := learning_id
      doc_id := 1 }
  next_learning_id := learnings.length + 1
  next_doc_id := documents.length + 1

/-- A committed learning is retired, its document is marked, and the same content
is committed again. -/
theorem durable_while_backed_again :
    exists s, ((DurableNodes plainNodeHost).Restrict
        (NodeEvent.Harmless plainNodeHost)).Reachable s ∧
      s.learnings.length = 2 ∧
      DurableLaw plainNodeHost ((DurableNodes plainNodeHost).Restrict
        (NodeEvent.Harmless plainNodeHost)) s := by
  let T := (DurableNodes plainNodeHost).Restrict
    (NodeEvent.Harmless plainNodeHost)
  have hcommit : T.step NodeStore.empty
      (NodeEvent.commit "owner" "text" none false)
      (textStore [some LearningStatus.active]
        [(some "accepted", some "learning")] [1]) := by
    constructor
    · constructor
      · decide
      · decide
      · simp
      · simp
      · intro doc hdoc
        cases hdoc
    · show nodeNext _ _ _ = _
      decide +kernel
  have hretire : T.step
      (textStore [some LearningStatus.active]
        [(some "accepted", some "learning")] [1])
      (NodeEvent.retire 1 Retirement.superseded)
      (textStore [some LearningStatus.superseded]
        [(some "accepted", some "learning")] [1]) := by
    constructor
    · intro doc _ agent_id content _ _ hleft
      rcases hleft with ⟨row, hrow, _, _, _, hends⟩
      have hone : row.learning_id = 1 := by
        simp [textStore] at hrow
        rw [hrow]
      simp [isLearning, hone] at hends
    · show nodeNext _ _ _ = _
      decide +kernel
  have hpurge : T.step
      (textStore [some LearningStatus.superseded]
        [(some "accepted", some "learning")] [1])
      (NodeEvent.purge (DocPath.durable "owner" "text"))
      (textStore [some LearningStatus.superseded]
        [(some "superseded", some "learning")] [1]) := by
    constructor
    · intro doc hdoc _ hunmapped
      have hone : doc.doc_id = 1 := by
        simp [textStore] at hdoc
        rw [hdoc]
      rw [hone] at hunmapped
      simp [NodeStore.mapped, textStore] at hunmapped
    · show nodeNext _ _ _ = _
      decide +kernel
  have hagain : T.step
      (textStore [some LearningStatus.superseded]
        [(some "superseded", some "learning")] [1])
      (NodeEvent.commit "owner" "text" none false)
      (textStore [some LearningStatus.superseded, some LearningStatus.active]
        [(some "accepted", some "learning")] [1, 2]) := by
    constructor
    · constructor
      · decide
      · decide
      · simp
      · simp
      · intro doc hdoc _ _
        right
        simp only [textStore, List.map_cons, List.map_nil,
          List.mem_singleton] at hdoc
        rw [hdoc]
        constructor
        · decide
        · decide +kernel
        · rfl
        · decide +kernel
        · decide +kernel
    · show nodeNext _ _ _ = _
      decide +kernel
  have hreach : T.Reachable
      (textStore [some LearningStatus.superseded, some LearningStatus.active]
        [(some "accepted", some "learning")] [1, 2]) :=
    ⟨NodeStore.empty, _, rfl,
      TransitionSystem.Run.cons hcommit
        (TransitionSystem.Run.cons hretire
          (TransitionSystem.Run.cons hpurge
            (TransitionSystem.Run.cons hagain
              (TransitionSystem.Run.nil _))))⟩
  exact ⟨_, hreach, rfl, durable_while_backed hreach⟩

/-- Two learnings without a mapping share a document.  When one is retired the
purge deletes it under the other. -/
theorem shared_document_deleted :
    ¬ forall s, (DurableNodes plainNodeHost).Reachable s ->
      DurableLaw plainNodeHost (DurableNodes plainNodeHost) s := by
  intro hlaw
  have hrun : TransitionSystem.exec (nodeNext plainNodeHost) NodeStore.empty
      [NodeEvent.store "owner" "text", NodeEvent.store "owner" "text",
        NodeEvent.project "owner" "text",
        NodeEvent.retire 1 Retirement.rejected] =
      some (textStore
        [some LearningStatus.rejected, some LearningStatus.active]
        [(some "accepted", none)] []) := by
    decide +kernel
  have hpurge : nodeNext plainNodeHost
      (textStore [some LearningStatus.rejected, some LearningStatus.active]
        [(some "accepted", none)] [])
      (NodeEvent.purge (DocPath.durable "owner" "text")) =
      some { textStore
        [some LearningStatus.rejected, some LearningStatus.active] [] [] with
        next_doc_id := 2 } := by
    decide +kernel
  have hkept := (hlaw _ ⟨NodeStore.empty, _, rfl,
    TransitionSystem.run_of_exec hrun⟩).undeleted _ _ "owner" "text" hpurge
    ⟨_, List.mem_singleton.mpr rfl, rfl⟩ (by decide +kernel)
  rcases hkept with ⟨doc, hdoc, _⟩
  cases hdoc

end Runs

end Daemon
end Minni
