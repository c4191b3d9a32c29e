import Mathlib.Data.List.Nodup
import Minni.Daemon.DurableNode

/-!
# When a durable document lives as long as its learnings

A document is served and unmarked while an active learning of its owner and
content exists, as long as no step leaves the document mapped to ended learnings
only while another active learning has the same content.
-/

namespace Minni
namespace Daemon

open Foundation

namespace NodeStore

/-- Some active learning of this owner has this content. -/
def backed (s : NodeStore) (agent_id content : String) : Bool :=
  s.learnings.any fun row =>
    row.agent_id = agent_id && row.content = content && row.active

/-- Some mapped learning of the document is active. -/
def served (s : NodeStore) (doc_id : Nat) : Bool :=
  (s.members doc_id).any BackingLearning.active

/-!
## What the three tests say
-/

theorem backed_iff {s : NodeStore} {agent_id content : String} :
    s.backed agent_id content = true <->
      exists row, row ∈ s.learnings ∧ row.agent_id = agent_id ∧
        row.content = content ∧ row.active = true := by
  simp [backed, and_assoc]

theorem mapped_iff {s : NodeStore} {doc_id : Nat} :
    s.mapped doc_id = true <->
      exists link, link ∈ s.learning_documents ∧ link.doc_id = doc_id := by
  simp [mapped]

theorem mem_members {s : NodeStore} {doc_id : Nat} {row : BackingLearning} :
    row ∈ s.members doc_id <->
      row ∈ s.learnings ∧
        NodeMapping.mk row.learning_id doc_id ∈ s.learning_documents := by
  simp [members]

theorem served_iff {s : NodeStore} {doc_id : Nat} :
    s.served doc_id = true <->
      exists row, row ∈ s.learnings ∧
        NodeMapping.mk row.learning_id doc_id ∈ s.learning_documents ∧
        row.active = true := by
  simp only [served, List.any_eq_true, mem_members, and_assoc]

theorem mapped_of_served {s : NodeStore} {doc_id : Nat}
    (h : s.served doc_id = true) :
    s.mapped doc_id = true := by
  rcases served_iff.mp h with ⟨row, _, hlink, _⟩
  exact mapped_iff.mpr ⟨_, hlink, rfl⟩

theorem nodeState_mapped (s : NodeStore) (doc_id : Nat) :
    (s.nodeState doc_id).mapped = s.mapped doc_id := by
  unfold nodeState
  cases hmapped : s.mapped doc_id with
  | false => rfl
  | true =>
      cases hactive : (s.members doc_id).any BackingLearning.active with
      | true => simp [hactive]
      | false =>
          simp only [hactive]
          cases ((s.members doc_id).filterMap
            BackingLearning.superseded_by).max? <;> rfl

theorem nodeState_active (s : NodeStore) (doc_id : Nat) :
    (s.nodeState doc_id).active = s.served doc_id := by
  cases hmapped : s.mapped doc_id with
  | false =>
      cases hserved : s.served doc_id with
      | false => simp [nodeState, hmapped]
      | true =>
          rw [mapped_of_served hserved] at hmapped
          cases hmapped
  | true =>
      unfold nodeState served
      cases hactive : (s.members doc_id).any BackingLearning.active with
      | true => simp [hmapped, hactive]
      | false =>
          simp only [hmapped, hactive]
          cases ((s.members doc_id).filterMap
            BackingLearning.superseded_by).max? <;> rfl

/-- Only a mapped document without an active member has a retirement status. -/
theorem nodeState_status {s : NodeStore} {doc_id : Nat} {status : String}
    (h : (s.nodeState doc_id).status = some status) :
    s.mapped doc_id = true ∧ s.served doc_id = false := by
  cases hmapped : s.mapped doc_id with
  | false => simp [nodeState, hmapped] at h
  | true =>
      cases hactive : (s.members doc_id).any BackingLearning.active with
      | true => simp [nodeState, hmapped, hactive] at h
      | false => exact ⟨rfl, hactive⟩

end NodeStore

/-!
## The shape of the tables

The keys are unique, a durable document belongs to the owner in its path, and a
learning is mapped to the document of its own owner and content only.
-/

structure NodeShape (s : NodeStore) : Prop where
  keyed : (s.learnings.map BackingLearning.learning_id).Nodup
  known : forall row, row ∈ s.learnings ->
    row.learning_id < s.next_learning_id
  positive : 0 < s.next_learning_id
  docKeyed : (s.documents.map NodeDocument.doc_id).Nodup
  docKnown : forall doc, doc ∈ s.documents -> doc.doc_id < s.next_doc_id
  paths : (s.documents.map NodeDocument.path).Nodup
  owned : forall doc, doc ∈ s.documents -> forall agent_id content,
    doc.path = DocPath.durable agent_id content -> doc.agent = agent_id
  linked : forall link, link ∈ s.learning_documents ->
    exists row, row ∈ s.learnings ∧ exists doc, doc ∈ s.documents ∧
      row.learning_id = link.learning_id ∧ doc.doc_id = link.doc_id ∧
      doc.path = DocPath.durable row.agent_id row.content
  named : forall row, row ∈ s.learnings -> row.agent_id ≠ ""
  nonzero : forall row, row ∈ s.learnings -> row.learning_id ≠ 0

namespace NodeShape

theorem empty : NodeShape NodeStore.empty where
  keyed := List.nodup_nil
  known := by simp [NodeStore.empty]
  positive := Nat.one_pos
  docKeyed := List.nodup_nil
  docKnown := by simp [NodeStore.empty]
  paths := List.nodup_nil
  owned := by simp [NodeStore.empty]
  linked := by simp [NodeStore.empty]
  named := by simp [NodeStore.empty]
  nonzero := by simp [NodeStore.empty]

theorem learning_eq {s : NodeStore} (h : NodeShape s)
    {row other : BackingLearning}
    (hrow : row ∈ s.learnings) (hother : other ∈ s.learnings)
    (hid : row.learning_id = other.learning_id) :
    row = other :=
  List.inj_on_of_nodup_map h.keyed hrow hother hid

theorem document_eq {s : NodeStore} (h : NodeShape s)
    {doc other : NodeDocument}
    (hdoc : doc ∈ s.documents) (hother : other ∈ s.documents)
    (hid : doc.doc_id = other.doc_id) :
    doc = other :=
  List.inj_on_of_nodup_map h.docKeyed hdoc hother hid

theorem document_eq_of_path {s : NodeStore} (h : NodeShape s)
    {doc other : NodeDocument}
    (hdoc : doc ∈ s.documents) (hother : other ∈ s.documents)
    (hpath : doc.path = other.path) :
    doc = other :=
  List.inj_on_of_nodup_map h.paths hdoc hother hpath

/-- A member of a durable document has its owner and its content. -/
theorem member {s : NodeStore} (h : NodeShape s)
    {doc : NodeDocument} {row : BackingLearning} {agent_id content : String}
    (hdoc : doc ∈ s.documents)
    (hpath : doc.path = DocPath.durable agent_id content)
    (hrow : row ∈ s.learnings)
    (hlink : NodeMapping.mk row.learning_id doc.doc_id ∈
      s.learning_documents) :
    row.agent_id = agent_id ∧ row.content = content := by
  rcases h.linked _ hlink with
    ⟨row', hrow', doc', hdoc', hid, hdocId, hpath'⟩
  have hrows : row' = row := h.learning_eq hrow' hrow hid
  have hdocs : doc' = doc := h.document_eq hdoc' hdoc hdocId
  rw [hrows, hdocs, hpath] at hpath'
  injection hpath' with hagent hcontent
  exact ⟨hagent.symm, hcontent.symm⟩

theorem backed_of_served {s : NodeStore} (h : NodeShape s)
    {doc : NodeDocument} {agent_id content : String}
    (hdoc : doc ∈ s.documents)
    (hpath : doc.path = DocPath.durable agent_id content)
    (hserved : s.served doc.doc_id = true) :
    s.backed agent_id content = true := by
  rcases NodeStore.served_iff.mp hserved with ⟨row, hrow, hlink, hactive⟩
  have hkey := h.member hdoc hpath hrow hlink
  exact NodeStore.backed_iff.mpr ⟨row, hrow, hkey.left, hkey.right, hactive⟩

/-- A learning that is not stored yet has no mapping. -/
theorem unlinked {s : NodeStore} (h : NodeShape s) (doc_id : Nat) :
    NodeMapping.mk s.next_learning_id doc_id ∉ s.learning_documents := by
  intro hlink
  rcases h.linked _ hlink with ⟨row, hrow, _, _, hid, _, _⟩
  have hlt := h.known row hrow
  rw [hid] at hlt
  exact Nat.lt_irrefl _ hlt

theorem unmapped_of_next {s : NodeStore} (h : NodeShape s) :
    s.mapped s.next_doc_id = false := by
  cases hmapped : s.mapped s.next_doc_id with
  | false => rfl
  | true =>
      rcases NodeStore.mapped_iff.mp hmapped with ⟨link, hlink, hid⟩
      rcases h.linked link hlink with ⟨_, _, doc, hdoc, _, hdocId, _⟩
      have hlt := h.docKnown doc hdoc
      rw [hdocId, hid] at hlt
      exact absurd hlt (Nat.lt_irrefl _)

end NodeShape

/-!
## Documents in order
-/

/-- A document that is mapped and backed has an active member, and one that says
superseded says so of itself or has only ended learnings. -/
structure DocSound (host : NodeHost) (s : NodeStore) (doc : NodeDocument) :
    Prop where
  served : forall agent_id content,
    doc.path = DocPath.durable agent_id content ->
    s.mapped doc.doc_id = true -> s.backed agent_id content = true ->
    s.served doc.doc_id = true
  marked : forall agent_id content,
    doc.path = DocPath.durable agent_id content ->
    doc.page_status = some "superseded" ->
    (host.durable_metadata content).1 = "superseded" ∨
      (s.mapped doc.doc_id = true ∧ s.backed agent_id content = false)

structure NodeSound (host : NodeHost) (s : NodeStore) : Prop where
  shape : NodeShape s
  documents : forall doc, doc ∈ s.documents -> DocSound host s doc

theorem DocSound.change {host : NodeHost} {s s' : NodeStore}
    {doc : NodeDocument}
    (h : DocSound host s doc)
    (hmapped : s'.mapped doc.doc_id = s.mapped doc.doc_id)
    (hbacked : forall agent_id content,
      doc.path = DocPath.durable agent_id content ->
      s'.backed agent_id content = true -> s.backed agent_id content = true)
    (hserved : forall agent_id content,
      doc.path = DocPath.durable agent_id content ->
      s.mapped doc.doc_id = true ->
      s'.backed agent_id content = true -> s.served doc.doc_id = true ->
      s'.served doc.doc_id = true) :
    DocSound host s' doc := by
  constructor
  · intro agent_id content hpath hm hb
    rw [hmapped] at hm
    exact hserved agent_id content hpath hm hb
      (h.served agent_id content hpath hm (hbacked agent_id content hpath hb))
  · intro agent_id content hpath hstatus
    rcases h.marked agent_id content hpath hstatus with hown | ⟨hm, hb⟩
    · exact Or.inl hown
    · right
      constructor
      · rw [hmapped]
        exact hm
      · cases hb' : s'.backed agent_id content with
        | false => rfl
        | true =>
            rw [hbacked agent_id content hpath hb'] at hb
            cases hb

/-- The documents' own fields play no part in the tests. -/
theorem DocSound.congr {host : NodeHost} {s s' : NodeStore}
    {doc : NodeDocument}
    (h : DocSound host s doc)
    (hlearnings : s'.learnings = s.learnings)
    (hlinks : s'.learning_documents = s.learning_documents) :
    DocSound host s' doc := by
  have hserved : s'.served doc.doc_id = s.served doc.doc_id := by
    simp [NodeStore.served, NodeStore.members, hlearnings, hlinks]
  apply h.change
  · simp [NodeStore.mapped, hlinks]
  · intro agent_id content _ hb
    simpa [NodeStore.backed, hlearnings] using hb
  · intro agent_id content _ _ _ hs
    rw [hserved]
    exact hs

/-!
## Changes of a document
-/

theorem mem_updateDocument {s : NodeStore} {doc_id : Nat}
    {f : NodeDocument -> NodeDocument} {doc : NodeDocument} :
    doc ∈ (s.updateDocument doc_id f).documents <->
      exists old, old ∈ s.documents ∧
        (if old.doc_id = doc_id then f old else old) = doc := by
  simp [NodeStore.updateDocument]

/-- A change that leaves a document where it is, with its owner. -/
structure KeepsPlace (f : NodeDocument -> NodeDocument) : Prop where
  doc_id : forall doc, (f doc).doc_id = doc.doc_id
  path : forall doc, (f doc).path = doc.path
  agent : forall doc, forall agent_id content,
    doc.path = DocPath.durable agent_id content -> doc.agent = agent_id ->
    (f doc).agent = agent_id

theorem NodeShape.updateDocument {s : NodeStore} (h : NodeShape s)
    {f : NodeDocument -> NodeDocument} (hf : KeepsPlace f) (doc_id : Nat) :
    NodeShape (s.updateDocument doc_id f) := by
  have hid : forall doc : NodeDocument,
      (if doc.doc_id = doc_id then f doc else doc).doc_id = doc.doc_id := by
    intro doc
    by_cases hdoc : doc.doc_id = doc_id
    · rw [if_pos hdoc]
      exact hf.doc_id doc
    · rw [if_neg hdoc]
  have hpath : forall doc : NodeDocument,
      (if doc.doc_id = doc_id then f doc else doc).path = doc.path := by
    intro doc
    by_cases hdoc : doc.doc_id = doc_id
    · rw [if_pos hdoc]
      exact hf.path doc
    · rw [if_neg hdoc]
  have hids : (s.updateDocument doc_id f).documents.map NodeDocument.doc_id =
      s.documents.map NodeDocument.doc_id := by
    simp only [NodeStore.updateDocument, List.map_map]
    apply List.map_congr_left
    intro doc _
    exact hid doc
  have hpaths : (s.updateDocument doc_id f).documents.map NodeDocument.path =
      s.documents.map NodeDocument.path := by
    simp only [NodeStore.updateDocument, List.map_map]
    apply List.map_congr_left
    intro doc _
    exact hpath doc
  constructor
  · exact h.keyed
  · exact h.known
  · exact h.positive
  · rw [hids]
    exact h.docKeyed
  · intro doc hdoc
    rcases mem_updateDocument.mp hdoc with ⟨old, hold, rfl⟩
    rw [hid]
    exact h.docKnown old hold
  · rw [hpaths]
    exact h.paths
  · intro doc hdoc agent_id content hdocPath
    rcases mem_updateDocument.mp hdoc with ⟨old, hold, rfl⟩
    rw [hpath] at hdocPath
    have howner := h.owned old hold agent_id content hdocPath
    by_cases hdoc' : old.doc_id = doc_id
    · rw [if_pos hdoc']
      exact hf.agent old agent_id content hdocPath howner
    · rw [if_neg hdoc']
      exact howner
  · intro link hlink
    rcases h.linked link hlink with
      ⟨row, hrow, doc, hdoc, hrowId, hdocId, hdocPath⟩
    refine ⟨row, hrow, if doc.doc_id = doc_id then f doc else doc,
      mem_updateDocument.mpr ⟨doc, hdoc, rfl⟩, hrowId, ?_, ?_⟩
    · rw [hid]
      exact hdocId
    · rw [hpath]
      exact hdocPath
  · exact h.named
  · exact h.nonzero

/-- A change of one document leaves all in order when the changed one is. -/
theorem NodeSound.updateDocument {host : NodeHost} {s : NodeStore}
    (h : NodeSound host s)
    {f : NodeDocument -> NodeDocument} (hf : KeepsPlace f) (doc_id : Nat)
    (hdoc : forall doc, doc ∈ s.documents -> doc.doc_id = doc_id ->
      DocSound host s (f doc)) :
    NodeSound host (s.updateDocument doc_id f) := by
  constructor
  · exact h.shape.updateDocument hf doc_id
  · intro doc hmem
    rcases mem_updateDocument.mp hmem with ⟨old, hold, rfl⟩
    by_cases hid : old.doc_id = doc_id
    · rw [if_pos hid]
      exact (hdoc old hold hid).congr rfl rfl
    · rw [if_neg hid]
      exact (h.documents old hold).congr rfl rfl

/-!
## Learnings that end
-/

/-- The learnings that meet a test are rewritten. -/
def NodeStore.endWhere (s : NodeStore) (ends : BackingLearning -> Bool)
    (g : BackingLearning -> BackingLearning) : NodeStore :=
  { s with
    learnings := s.learnings.map fun row => if ends row then g row else row }

/-- A change that ends a learning and keeps what it is about. -/
structure Ends (g : BackingLearning -> BackingLearning) : Prop where
  learning_id : forall row, (g row).learning_id = row.learning_id
  agent_id : forall row, (g row).agent_id = row.agent_id
  content : forall row, (g row).content = row.content
  ended : forall row, (g row).active = false

/-- When an active learning with the document's owner and content is left, a
mapped one is left. -/
def KeepsMapped (s : NodeStore) (ends : BackingLearning -> Bool)
    (doc : NodeDocument) : Prop :=
  forall agent_id content,
    doc.path = DocPath.durable agent_id content ->
    s.mapped doc.doc_id = true ->
    (exists row, row ∈ s.learnings ∧ row.agent_id = agent_id ∧
      row.content = content ∧ row.active = true ∧ ends row = false) ->
    exists row, row ∈ s.members doc.doc_id ∧ row.active = true ∧
      ends row = false

section Ending

variable {s : NodeStore} {ends : BackingLearning -> Bool}
variable {g : BackingLearning -> BackingLearning}

theorem mem_endWhere {row : BackingLearning} :
    row ∈ (s.endWhere ends g).learnings <->
      exists old, old ∈ s.learnings ∧
        (if ends old = true then g old else old) = row := by
  simp [NodeStore.endWhere]

theorem Ends.learning_id_eq (hg : Ends g) (row : BackingLearning) :
    (if ends row = true then g row else row).learning_id =
      row.learning_id := by
  by_cases h : ends row = true
  · rw [if_pos h]
    exact hg.learning_id row
  · rw [if_neg h]

theorem Ends.agent_id_eq (hg : Ends g) (row : BackingLearning) :
    (if ends row = true then g row else row).agent_id = row.agent_id := by
  by_cases h : ends row = true
  · rw [if_pos h]
    exact hg.agent_id row
  · rw [if_neg h]

theorem Ends.content_eq (hg : Ends g) (row : BackingLearning) :
    (if ends row = true then g row else row).content = row.content := by
  by_cases h : ends row = true
  · rw [if_pos h]
    exact hg.content row
  · rw [if_neg h]

/-- What is active afterwards was active and did not end. -/
theorem Ends.active_iff (hg : Ends g) (row : BackingLearning) :
    (if ends row = true then g row else row).active = true <->
      row.active = true ∧ ends row = false := by
  by_cases h : ends row = true
  · rw [if_pos h, hg.ended row]
    simp [h]
  · rw [if_neg h]
    simp [h]

theorem backed_endWhere (hg : Ends g) {agent_id content : String} :
    (s.endWhere ends g).backed agent_id content = true <->
      exists row, row ∈ s.learnings ∧ row.agent_id = agent_id ∧
        row.content = content ∧ row.active = true ∧ ends row = false := by
  rw [NodeStore.backed_iff]
  constructor
  · intro h
    rcases h with ⟨row, hrow, hagent, hcontent, hactive⟩
    rcases mem_endWhere.mp hrow with ⟨old, hold, rfl⟩
    rw [hg.agent_id_eq] at hagent
    rw [hg.content_eq] at hcontent
    exact ⟨old, hold, hagent, hcontent, (hg.active_iff old).mp hactive⟩
  · intro h
    rcases h with ⟨row, hrow, hagent, hcontent, hactive⟩
    refine ⟨_, mem_endWhere.mpr ⟨row, hrow, rfl⟩, ?_, ?_, ?_⟩
    · rw [hg.agent_id_eq]
      exact hagent
    · rw [hg.content_eq]
      exact hcontent
    · exact (hg.active_iff row).mpr hactive

theorem served_endWhere (hg : Ends g) {doc_id : Nat} :
    (s.endWhere ends g).served doc_id = true <->
      exists row, row ∈ s.members doc_id ∧ row.active = true ∧
        ends row = false := by
  rw [NodeStore.served_iff]
  constructor
  · intro h
    rcases h with ⟨row, hrow, hlink, hactive⟩
    rcases mem_endWhere.mp hrow with ⟨old, hold, rfl⟩
    rw [hg.learning_id_eq] at hlink
    exact ⟨old, NodeStore.mem_members.mpr ⟨hold, hlink⟩,
      (hg.active_iff old).mp hactive⟩
  · intro h
    rcases h with ⟨row, hrow, hactive⟩
    rcases NodeStore.mem_members.mp hrow with ⟨hmem, hlink⟩
    refine ⟨_, mem_endWhere.mpr ⟨row, hmem, rfl⟩, ?_, ?_⟩
    · rw [hg.learning_id_eq]
      exact hlink
    · exact (hg.active_iff row).mpr hactive

theorem NodeShape.endWhere (h : NodeShape s) (hg : Ends g) :
    NodeShape (s.endWhere ends g) := by
  have hids : (s.endWhere ends g).learnings.map BackingLearning.learning_id =
      s.learnings.map BackingLearning.learning_id := by
    simp only [NodeStore.endWhere, List.map_map]
    apply List.map_congr_left
    intro row _
    exact hg.learning_id_eq row
  constructor
  · rw [hids]
    exact h.keyed
  · intro row hrow
    rcases mem_endWhere.mp hrow with ⟨old, hold, rfl⟩
    rw [hg.learning_id_eq]
    exact h.known old hold
  · exact h.positive
  · exact h.docKeyed
  · exact h.docKnown
  · exact h.paths
  · exact h.owned
  · intro link hlink
    rcases h.linked link hlink with
      ⟨row, hrow, doc, hdoc, hrowId, hdocId, hpath⟩
    refine ⟨_, mem_endWhere.mpr ⟨row, hrow, rfl⟩, doc, hdoc, ?_, hdocId, ?_⟩
    · rw [hg.learning_id_eq]
      exact hrowId
    · rw [hg.agent_id_eq, hg.content_eq]
      exact hpath
  · intro row hrow
    rcases mem_endWhere.mp hrow with ⟨old, hold, rfl⟩
    rw [hg.agent_id_eq]
    exact h.named old hold
  · intro row hrow
    rcases mem_endWhere.mp hrow with ⟨old, hold, rfl⟩
    rw [hg.learning_id_eq]
    exact h.nonzero old hold

theorem DocSound.endWhere {host : NodeHost} {doc : NodeDocument}
    (h : DocSound host s doc) (hg : Ends g)
    (hkeeps : KeepsMapped s ends doc) :
    DocSound host (s.endWhere ends g) doc := by
  apply h.change
  · rfl
  · intro agent_id content _ hb
    rcases (backed_endWhere hg).mp hb with
      ⟨row, hrow, hagent, hcontent, hactive, _⟩
    exact NodeStore.backed_iff.mpr ⟨row, hrow, hagent, hcontent, hactive⟩
  · intro agent_id content hpath hm hb _
    exact (served_endWhere hg).mpr
      (hkeeps agent_id content hpath hm ((backed_endWhere hg).mp hb))

theorem NodeSound.endWhere {host : NodeHost}
    (h : NodeSound host s) (hg : Ends g)
    (hkeeps : forall doc, doc ∈ s.documents -> KeepsMapped s ends doc) :
    NodeSound host (s.endWhere ends g) := by
  constructor
  · exact h.shape.endWhere hg
  · intro doc hdoc
    exact (h.documents doc hdoc).endWhere hg (hkeeps doc hdoc)

end Ending

/-- The learning with an id. -/
def isLearning (learning_id : Nat) (row : BackingLearning) : Bool :=
  row.learning_id = learning_id

theorem updateLearning_eq (s : NodeStore) (learning_id : Nat)
    (g : BackingLearning -> BackingLearning) :
    s.updateLearning learning_id g =
      s.endWhere (isLearning learning_id) g := by
  simp [NodeStore.updateLearning, NodeStore.endWhere, isLearning]

theorem ends_supersede (successor : Int) :
    Ends fun row => { row with superseded_by := some successor } := by
  constructor <;> intro row
  · rfl
  · rfl
  · rfl
  · rfl

theorem ends_retire (how : Retirement) :
    Ends fun row => { row with status := some how.status } := by
  constructor <;> intro row
  · rfl
  · rfl
  · rfl
  · cases how <;> simp [BackingLearning.active, openLearningStatus,
      Retirement.status]

theorem ends_member (successor : Int) :
    Ends fun row =>
      { row with
        status := some LearningStatus.superseded
        superseded_by := some successor } := by
  constructor <;> intro row
  · rfl
  · rfl
  · rfl
  · rfl

/-!
## New learnings
-/

theorem mem_insertLearning {s : NodeStore} {agent_id content : String}
    {row : BackingLearning} :
    row ∈ (s.insertLearning agent_id content).learnings <->
      row ∈ s.learnings ∨
        row = BackingLearning.mk s.next_learning_id agent_id content
          (some LearningStatus.active) none := by
  simp [NodeStore.insertLearning]

theorem backed_insertLearning {s : NodeStore} {agent_id content : String}
    {owner text : String} :
    (s.insertLearning agent_id content).backed owner text = true <->
      s.backed owner text = true ∨ (agent_id = owner ∧ content = text) := by
  rw [NodeStore.backed_iff, NodeStore.backed_iff]
  constructor
  · intro h
    rcases h with ⟨row, hrow, howner, htext, hactive⟩
    rcases mem_insertLearning.mp hrow with hold | rfl
    · exact Or.inl ⟨row, hold, howner, htext, hactive⟩
    · exact Or.inr ⟨howner, htext⟩
  · intro h
    rcases h with ⟨row, hrow, hfacts⟩ | ⟨howner, htext⟩
    · exact ⟨row, mem_insertLearning.mpr (Or.inl hrow), hfacts⟩
    · exact ⟨_, mem_insertLearning.mpr (Or.inr rfl), howner, htext, rfl⟩

/-- A new learning is mapped to nothing. -/
theorem served_insertLearning {s : NodeStore} (h : NodeShape s)
    {agent_id content : String} {doc_id : Nat} :
    (s.insertLearning agent_id content).served doc_id = true <->
      s.served doc_id = true := by
  rw [NodeStore.served_iff, NodeStore.served_iff]
  constructor
  · intro hs
    rcases hs with ⟨row, hrow, hlink, hactive⟩
    rcases mem_insertLearning.mp hrow with hold | rfl
    · exact ⟨row, hold, hlink, hactive⟩
    · exact absurd hlink (h.unlinked doc_id)
  · intro hs
    rcases hs with ⟨row, hrow, hfacts⟩
    exact ⟨row, mem_insertLearning.mpr (Or.inl hrow), hfacts⟩

theorem NodeShape.insertLearning {s : NodeStore} (h : NodeShape s)
    {agent_id : String} (content : String) (hagent : agent_id ≠ "") :
    NodeShape (s.insertLearning agent_id content) := by
  constructor
  · have hids : (s.insertLearning agent_id content).learnings.map
        BackingLearning.learning_id =
        s.learnings.map BackingLearning.learning_id ++
          [s.next_learning_id] := by
      simp [NodeStore.insertLearning]
    rw [hids, List.nodup_append]
    refine ⟨h.keyed, by simp, ?_⟩
    intro id hid other hother
    rcases List.mem_map.mp hid with ⟨row, hrow, rfl⟩
    rw [List.mem_singleton.mp hother]
    exact Nat.ne_of_lt (h.known row hrow)
  · intro row hrow
    rcases mem_insertLearning.mp hrow with hold | rfl
    · exact Nat.lt_succ_of_lt (h.known row hold)
    · exact Nat.lt_succ_self _
  · exact Nat.succ_pos _
  · exact h.docKeyed
  · exact h.docKnown
  · exact h.paths
  · exact h.owned
  · intro link hlink
    rcases h.linked link hlink with ⟨row, hrow, hfacts⟩
    exact ⟨row, mem_insertLearning.mpr (Or.inl hrow), hfacts⟩
  · intro row hrow
    rcases mem_insertLearning.mp hrow with hold | rfl
    · exact h.named row hold
    · exact hagent
  · intro row hrow
    rcases mem_insertLearning.mp hrow with hold | rfl
    · exact h.nonzero row hold
    · exact Nat.ne_of_gt h.positive

theorem DocSound.insertLearning {host : NodeHost} {s : NodeStore}
    {doc : NodeDocument} (h : DocSound host s doc) (hshape : NodeShape s)
    {agent_id content : String}
    (hother : doc.path ≠ DocPath.durable agent_id content) :
    DocSound host (s.insertLearning agent_id content) doc := by
  apply h.change
  · rfl
  · intro owner text hpath hb
    rcases backed_insertLearning.mp hb with hold | ⟨howner, htext⟩
    · exact hold
    · rw [howner, htext] at hother
      exact absurd hpath hother
  · intro owner text _ _ _ hs
    exact (served_insertLearning hshape).mpr hs

/-- A learning that is stored without a mapping. -/
theorem NodeSound.insertLearning {host : NodeHost} {s : NodeStore}
    (h : NodeSound host s) {agent_id content : String} (hagent : agent_id ≠ "")
    (hserved : forall doc, doc ∈ s.documents ->
      doc.path = DocPath.durable agent_id content ->
      s.mapped doc.doc_id = true -> s.served doc.doc_id = true) :
    NodeSound host (s.insertLearning agent_id content) := by
  constructor
  · exact h.shape.insertLearning content hagent
  · intro doc hdoc
    by_cases hpath : doc.path = DocPath.durable agent_id content
    · constructor
      · intro owner text _ hm _
        exact (served_insertLearning h.shape).mpr (hserved doc hdoc hpath hm)
      · intro owner text hpath' hstatus
        rcases (h.documents doc hdoc).marked owner text hpath' hstatus with
          hown | ⟨hm, hb⟩
        · exact Or.inl hown
        · have hbacked := h.shape.backed_of_served hdoc hpath'
            (hserved doc hdoc hpath hm)
          rw [hbacked] at hb
          cases hb
    · exact (h.documents doc hdoc).insertLearning h.shape hpath

/-!
## Nodes
-/

theorem mem_addMapping {s : NodeStore} {link other : NodeMapping} :
    other ∈ (s.addMapping link).learning_documents <->
      other ∈ s.learning_documents ∨ other = link := by
  unfold NodeStore.addMapping
  by_cases h : s.learning_documents.contains link = true
  · rw [if_pos h]
    constructor
    · exact Or.inl
    · intro hother
      rcases hother with hold | rfl
      · exact hold
      · simpa using h
  · rw [if_neg h]
    simp

theorem addMapping_learnings (s : NodeStore) (link : NodeMapping) :
    (s.addMapping link).learnings = s.learnings := by
  unfold NodeStore.addMapping
  by_cases h : s.learning_documents.contains link = true
  · rw [if_pos h]
  · rw [if_neg h]

theorem addMapping_documents (s : NodeStore) (link : NodeMapping) :
    (s.addMapping link).documents = s.documents := by
  unfold NodeStore.addMapping
  by_cases h : s.learning_documents.contains link = true
  · rw [if_pos h]
  · rw [if_neg h]

theorem addMapping_next (s : NodeStore) (link : NodeMapping) :
    (s.addMapping link).next_learning_id = s.next_learning_id ∧
      (s.addMapping link).next_doc_id = s.next_doc_id := by
  unfold NodeStore.addMapping
  by_cases h : s.learning_documents.contains link = true
  · rw [if_pos h]
    exact ⟨rfl, rfl⟩
  · rw [if_neg h]
    exact ⟨rfl, rfl⟩

theorem NodeShape.addMapping {s : NodeStore} (h : NodeShape s)
    {row : BackingLearning} {doc : NodeDocument}
    (hrow : row ∈ s.learnings) (hdoc : doc ∈ s.documents)
    (hpath : doc.path = DocPath.durable row.agent_id row.content) :
    NodeShape (s.addMapping
      { learning_id := row.learning_id
        doc_id := doc.doc_id }) := by
  constructor
  · rw [addMapping_learnings]
    exact h.keyed
  · rw [addMapping_learnings, (addMapping_next s _).left]
    exact h.known
  · rw [(addMapping_next s _).left]
    exact h.positive
  · rw [addMapping_documents]
    exact h.docKeyed
  · rw [addMapping_documents, (addMapping_next s _).right]
    exact h.docKnown
  · rw [addMapping_documents]
    exact h.paths
  · rw [addMapping_documents]
    exact h.owned
  · intro link hlink
    rw [addMapping_learnings, addMapping_documents]
    rcases mem_addMapping.mp hlink with hold | rfl
    · exact h.linked link hold
    · exact ⟨row, hrow, doc, hdoc, rfl, rfl, hpath⟩
  · rw [addMapping_learnings]
    exact h.named
  · rw [addMapping_learnings]
    exact h.nonzero

theorem DocSound.addMapping {host : NodeHost} {s : NodeStore}
    {doc : NodeDocument} (h : DocSound host s doc) {link : NodeMapping}
    (hother : link.doc_id ≠ doc.doc_id) :
    DocSound host (s.addMapping link) doc := by
  apply h.change
  · cases hm : s.mapped doc.doc_id with
    | true =>
        rcases NodeStore.mapped_iff.mp hm with ⟨old, hold, hid⟩
        exact NodeStore.mapped_iff.mpr
          ⟨old, mem_addMapping.mpr (Or.inl hold), hid⟩
    | false =>
        cases hm' : (s.addMapping link).mapped doc.doc_id with
        | false => rfl
        | true =>
            rcases NodeStore.mapped_iff.mp hm' with ⟨old, hold, hid⟩
            rcases mem_addMapping.mp hold with hin | rfl
            · rw [NodeStore.mapped_iff.mpr ⟨old, hin, hid⟩] at hm
              cases hm
            · exact absurd hid hother
  · intro agent_id content _ hb
    simpa [NodeStore.backed, addMapping_learnings] using hb
  · intro agent_id content _ _ _ hs
    rcases NodeStore.served_iff.mp hs with ⟨row, hrow, hlink, hactive⟩
    refine NodeStore.served_iff.mpr
      ⟨row, ?_, mem_addMapping.mpr (Or.inl hlink), hactive⟩
    rw [addMapping_learnings]
    exact hrow

/-- Mapping an active learning brings its document in order. -/
theorem nodeSound_of_mapping {host : NodeHost} {s : NodeStore} (h : NodeShape s)
    {row : BackingLearning} {doc : NodeDocument}
    (hrow : row ∈ s.learnings) (hactive : row.active = true)
    (hdoc : doc ∈ s.documents)
    (hpath : doc.path = DocPath.durable row.agent_id row.content)
    (hmark : doc.page_status = some "superseded" ->
      (host.durable_metadata row.content).1 = "superseded")
    (hothers : forall other, other ∈ s.documents ->
      other.path ≠ DocPath.durable row.agent_id row.content ->
      DocSound host s other) :
    NodeSound host (s.addMapping
      { learning_id := row.learning_id
        doc_id := doc.doc_id }) := by
  constructor
  · exact h.addMapping hrow hdoc hpath
  · intro other hother
    rw [addMapping_documents] at hother
    by_cases hsame : other = doc
    · rw [hsame]
      constructor
      · intro agent_id content _ _ _
        refine NodeStore.served_iff.mpr
          ⟨row, ?_, mem_addMapping.mpr (Or.inr rfl), hactive⟩
        rw [addMapping_learnings]
        exact hrow
      · intro agent_id content hpath' hstatus
        rw [hpath] at hpath'
        injection hpath' with _ hcontent
        rw [← hcontent]
        exact Or.inl (hmark hstatus)
    · apply (hothers other hother _).addMapping
      · intro hid
        exact hsame (h.document_eq hother hdoc hid.symm)
      · intro hpath'
        exact hsame (h.document_eq_of_path hother hdoc (hpath'.trans hpath.symm))

theorem documentAt_some {s : NodeStore} {path : DocPath} {doc : NodeDocument}
    (h : s.documentAt path = some doc) :
    doc ∈ s.documents ∧ doc.path = path := by
  constructor
  · exact List.mem_of_find?_eq_some h
  · have hpath := List.find?_some h
    simpa using hpath

theorem documentAt_none {s : NodeStore} {path : DocPath}
    (h : s.documentAt path = none) {doc : NodeDocument}
    (hdoc : doc ∈ s.documents) :
    doc.path ≠ path := by
  have hno := List.find?_eq_none.mp h doc hdoc
  simpa using hno

/-- A document at a path of its own is inserted. -/
def NodeStore.addDocument (s : NodeStore) (doc : NodeDocument) : NodeStore :=
  { s with
    documents := s.documents ++ [doc]
    next_doc_id := s.next_doc_id + 1 }

theorem mem_addDocument {s : NodeStore} {doc other : NodeDocument} :
    other ∈ (s.addDocument doc).documents <->
      other ∈ s.documents ∨ other = doc := by
  simp [NodeStore.addDocument]

theorem NodeShape.addDocument {s : NodeStore} (h : NodeShape s)
    {doc : NodeDocument} (hid : doc.doc_id = s.next_doc_id)
    (hfresh : forall other, other ∈ s.documents -> other.path ≠ doc.path)
    (howned : forall agent_id content,
      doc.path = DocPath.durable agent_id content -> doc.agent = agent_id) :
    NodeShape (s.addDocument doc) := by
  constructor
  · exact h.keyed
  · exact h.known
  · exact h.positive
  · simp only [NodeStore.addDocument, List.map_append, List.nodup_append]
    refine ⟨h.docKeyed, by simp, ?_⟩
    intro id hmem other hother
    rcases List.mem_map.mp hmem with ⟨old, hold, rfl⟩
    rw [List.mem_singleton.mp hother, hid]
    exact Nat.ne_of_lt (h.docKnown old hold)
  · intro other hother
    rcases mem_addDocument.mp hother with hold | rfl
    · exact Nat.lt_succ_of_lt (h.docKnown other hold)
    · rw [hid]
      exact Nat.lt_succ_self _
  · simp only [NodeStore.addDocument, List.map_append, List.nodup_append]
    refine ⟨h.paths, by simp, ?_⟩
    intro path hmem other hother
    rcases List.mem_map.mp hmem with ⟨old, hold, rfl⟩
    rw [List.mem_singleton.mp hother]
    exact hfresh old hold
  · intro other hother agent_id content hpath
    rcases mem_addDocument.mp hother with hold | rfl
    · exact h.owned other hold agent_id content hpath
    · exact howned agent_id content hpath
  · intro link hlink
    rcases h.linked link hlink with ⟨row, hrow, old, hold, hfacts⟩
    exact ⟨row, hrow, old, mem_addDocument.mpr (Or.inl hold), hfacts⟩
  · exact h.named
  · exact h.nonzero

end Daemon
end Minni
