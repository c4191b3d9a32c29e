import Mathlib.Logic.Function.Basic

/-!
# The vector cache on disk

A save writes its files under temporary names and renames them, the data first
and the manifest last.  It may end between any two of these steps, so that what
a load finds is what the renames of several saves have left.
-/

namespace Minni
namespace Recall

/-!
## Files
-/

inductive CacheFile where
  | faiss
  | npz
  | manifest
  deriving DecidableEq, Repr

structure Manifest where
  embedding_model : String
  vector_dim : Nat
  embedding_quantization : String
  chunk_id_order : List Nat
  chunk_count : Nat
  db_checksum : String
  saved_at : String
  deriving DecidableEq, Repr

/-- What a file holds, for vectors of a type. -/
inductive Content (vector : Type) where
  /-- The vectors of an index, by position. -/
  | index (vectors : List vector)
  | arrays (vectors : List vector) (chunkIds : List Nat)
  | manifest (m : Manifest)
  deriving DecidableEq, Repr

/-- A file and the save that wrote it; a file that is not written to its end
has no content. -/
structure Stored (vector : Type) where
  savedBy : Nat
  content : Option (Content vector)
  deriving DecidableEq, Repr

structure Disk (vector : Type) where
  final : CacheFile -> Option (Stored vector)
  temp : CacheFile -> Option (Stored vector)

def emptyDisk (vector : Type) : Disk vector :=
  { final := fun _ => none, temp := fun _ => none }

inductive FileStep (vector : Type) where
  | openTemp (file : CacheFile)
  | writeTemp (file : CacheFile) (content : Content vector)
  /-- `os.replace` -/
  | replace (file : CacheFile)
  | removeTemp (file : CacheFile)
  deriving DecidableEq, Repr

variable {vector : Type}

def Disk.apply (savedBy : Nat) (disk : Disk vector) :
    FileStep vector -> Disk vector
  | .openTemp file =>
      { disk with
        temp := Function.update disk.temp file
          (some { savedBy := savedBy, content := none }) }
  | .writeTemp file content =>
      { disk with
        temp := Function.update disk.temp file
          (some { savedBy := savedBy, content := some content }) }
  | .replace file =>
      match disk.temp file with
      | none => disk
      | some stored =>
          { final := Function.update disk.final file (some stored)
            temp := Function.update disk.temp file none }
  | .removeTemp file =>
      { disk with temp := Function.update disk.temp file none }

/-!
## Saving
-/

structure SaveCall (vector : Type) where
  /-- The vectors that the index object holds, by position. -/
  index : Option (List vector)
  vectors : List vector
  chunk_ids : List Nat
  embedding_model : String
  vector_dim : Nat
  embedding_quantization : String
  db_checksum : String
  saved_at : String
  deriving DecidableEq, Repr

/-- What `faiss.write_index` does. -/
inductive FaissOutcome where
  | written
  /-- FAISS cannot be imported or has no `write_index`. -/
  | unavailable
  /-- The write fails after the file is opened. -/
  | failed
  deriving DecidableEq, Repr

namespace SaveCall

variable (call : SaveCall vector)

def manifest : Manifest :=
  { embedding_model := call.embedding_model
    vector_dim := call.vector_dim
    embedding_quantization := call.embedding_quantization
    chunk_id_order := call.chunk_ids
    chunk_count := call.chunk_ids.length
    db_checksum := call.db_checksum
    saved_at := call.saved_at }

def manifestSteps : List (FileStep vector) :=
  [.openTemp .manifest, .writeTemp .manifest (.manifest call.manifest)]

/-- Without vectors there is nothing to fall back to. -/
def npzSteps : List (FileStep vector) :=
  match call.vectors with
  | [] => []
  | _ :: _ =>
      [.openTemp .npz, .writeTemp .npz (.arrays call.vectors call.chunk_ids)]
        ++ call.manifestSteps ++ [.replace .npz, .replace .manifest]

/-- The steps of a save, in turn. -/
def steps (outcome : FaissOutcome) : List (FileStep vector) :=
  match call.index, outcome with
  | none, _ => call.npzSteps
  | some _, .unavailable => call.npzSteps
  | some _, .failed => .openTemp .faiss :: call.npzSteps
  | some held, .written =>
      [.openTemp .faiss, .writeTemp .faiss (.index held)] ++
        call.manifestSteps ++ [.replace .faiss, .replace .manifest]

end SaveCall

/-- A save and how far it came: the steps it performed, and the temporary
files that it still removed. -/
structure Attempt (vector : Type) where
  call : SaveCall vector
  outcome : FaissOutcome
  performed : Nat
  removed : List CacheFile
  deriving DecidableEq, Repr

def Attempt.done (attempt : Attempt vector) : List (FileStep vector) :=
  (attempt.call.steps attempt.outcome).take attempt.performed

def Attempt.perform (disk : Disk vector) (numbered : Attempt vector × Nat) :
    Disk vector :=
  (numbered.1.done ++ numbered.1.removed.map FileStep.removeTemp).foldl
    (Disk.apply numbered.2) disk

/-- The disk after a sequence of saves with one manifest path. -/
def diskAfter (attempts : List (Attempt vector)) : Disk vector :=
  attempts.zipIdx.foldl Attempt.perform (emptyDisk vector)

/-!
## Loading
-/

structure LoadRequest where
  expected_db_checksum : String
  expected_model : String
  expected_dim : Nat
  expected_quantization : String
  deriving DecidableEq, Repr

/-- What a load returns, and the saves that its parts come from. -/
structure Loaded (vector : Type) where
  faiss_index : Option (List vector)
  chunk_ids : List Nat
  vectors : List vector
  vectorsFrom : Nat
  idsFrom : Nat
  deriving DecidableEq, Repr

def LoadRequest.accepts (request : LoadRequest) (m : Manifest) : Bool :=
  m.db_checksum == request.expected_db_checksum &&
    (request.expected_model == "" ||
      m.embedding_model == request.expected_model) &&
    (request.expected_dim == 0 || m.vector_dim == request.expected_dim) &&
    (request.expected_quantization == "" ||
      m.embedding_quantization == request.expected_quantization)

/-- The numpy fallback. -/
def loadNpz (disk : Disk vector) (npzReads : Bool) : Option (Loaded vector) :=
  match disk.final .npz with
  | some ⟨n, some (.arrays vectors chunkIds)⟩ =>
      if npzReads then
        some
          { faiss_index := none
            chunk_ids := chunkIds
            vectors := vectors
            vectorsFrom := n
            idsFrom := n }
      else none
  | _ => none

/-- `faissReads` and `npzReads` say whether the host can read such files. -/
def load (disk : Disk vector) (request : LoadRequest)
    (faissReads npzReads : Bool) : Option (Loaded vector) :=
  match disk.final .manifest with
  | some ⟨saved, some (.manifest m)⟩ =>
      if request.accepts m then
        match faissReads, disk.final .faiss with
        | true, some ⟨n, some (.index held)⟩ =>
            some
              { faiss_index := some held
                chunk_ids := m.chunk_id_order
                vectors := []
                vectorsFrom := n
                idsFrom := saved }
        | _, _ => loadNpz disk npzReads
      else none
  | _ => none

end Recall
end Minni
