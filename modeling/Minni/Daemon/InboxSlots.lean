import Minni.Daemon.Governance
import Minni.Foundation.Dict

/-!
# The slots of an inbox file

A candidate of an inbox file has a principal, a file and an index, and no two
packets share them.  Bodies that are stored already are skipped, a body whose
index is free keeps it, and other bodies go behind everything that is stored.
-/

namespace Minni
namespace Daemon

open Foundation

/-!
## Occupancy

The bodies at an index are a list of their hashes that stands for a set: two
may share an index where the unique key was not installed.
-/

abbrev Occupancy := List (Int × List String)

def allOccupiedShas (occupied : Occupancy) : List String :=
  occupied.flatMap (·.2)

abbrev FillRequest := Int × String

/-- What the first pass makes of a request. -/
inductive Placement where
  | present
  | own
  | extra
  deriving DecidableEq

/-- The first pass: a free index goes to the request that wants it, and the hash
of every other new body is claimed, so that it is taken once. -/
def placeOwn (occupied : Occupancy) (existing_shas : List String) :
    List FillRequest -> List Placement × Occupancy
  | [] => ([], occupied)
  | (idx, sha) :: rest =>
      if sha ∈ existing_shas then
        let (placed, after) := placeOwn occupied existing_shas rest
        (Placement.present :: placed, after)
      else if occupied.lookup idx = none then
        let (placed, after) :=
          placeOwn (Dict.set idx [sha] occupied) (sha :: existing_shas) rest
        (Placement.own :: placed, after)
      else
        let (placed, after) :=
          placeOwn occupied (sha :: existing_shas) rest
        (Placement.extra :: placed, after)

/-- The second pass: the extras take the next indices in their order. -/
def placeExtras (occupied : Occupancy) (next_idx : Int) :
    List (Placement × FillRequest) -> List (Option Int) × Occupancy
  | [] => ([], occupied)
  | (Placement.present, _) :: rest =>
      let (assigned, after) := placeExtras occupied next_idx rest
      (none :: assigned, after)
  | (Placement.own, (idx, _)) :: rest =>
      let (assigned, after) := placeExtras occupied next_idx rest
      (some idx :: assigned, after)
  | (Placement.extra, (_, sha)) :: rest =>
      if sha ∈ allOccupiedShas occupied then
        let (assigned, after) := placeExtras occupied next_idx rest
        (none :: assigned, after)
      else
        let (assigned, after) :=
          placeExtras (Dict.set next_idx [sha] occupied) (next_idx + 1) rest
        (some next_idx :: assigned, after)

/-- The greatest index, and -1 where there is none. -/
def maxIndex (occupied : Occupancy) : Int :=
  match occupied.map (·.1) with
  | [] => -1
  | first :: rest => rest.foldl max first

def assignFillIndices (occupied : Occupancy) (requested : List FillRequest) :
    List (Option Int) × Occupancy :=
  let (placed, after) :=
    placeOwn occupied (allOccupiedShas occupied) requested
  placeExtras after (maxIndex after + 1) (placed.zip requested)

/-!
## Rows
-/

structure InboxRow where
  principal : String
  inbox_file : String
  candidate_index : Int
  content : String
  deriving DecidableEq

structure InboxKey where
  canon : String
  inbox_file : String
  deriving DecidableEq

def InboxRow.key (row : InboxRow) : InboxKey where
  canon := canonicalPrincipal row.principal
  inbox_file := row.inbox_file

/-- The rows of each key, with the keys in the order in which they come up. -/
def groupRows (rows : List InboxRow) : List (InboxKey × List InboxRow) :=
  rows.foldl
    (fun grouped row =>
      Dict.set row.key ((grouped.lookup row.key).getD [] ++ [row]) grouped)
    []

structure Remapped where
  out : List InboxRow
  skipped : Nat
  occupancy : List (InboxKey × Occupancy)

def keepAssigned : List (InboxRow × Option Int) -> List InboxRow × Nat
  | [] => ([], 0)
  | (_, none) :: rest =>
      let (kept, skipped) := keepAssigned rest
      (kept, skipped + 1)
  | (row, some new_idx) :: rest =>
      let (kept, skipped) := keepAssigned rest
      ({ row with candidate_index := new_idx } :: kept, skipped)

section Remap

variable (contentSha1 : String -> String)

def InboxRow.request (row : InboxRow) : FillRequest :=
  (row.candidate_index, contentSha1 row.content)

/-- The rows of one key against the slots of their file. -/
def remapFile (slot : Occupancy) (rows : List InboxRow) :
    (List InboxRow × Nat) × Occupancy :=
  let (assigned, after) :=
    assignFillIndices slot (rows.map (InboxRow.request contentSha1))
  (keepAssigned (rows.zip assigned), after)

def remapGroups (done : Remapped) :
    List (InboxKey × List InboxRow) -> Remapped
  | [] => done
  | (key, rows) :: rest =>
      let slot := (done.occupancy.lookup key).getD []
      let ((kept, skipped), after) := remapFile contentSha1 slot rows
      remapGroups
        { out := done.out ++ kept
          skipped := done.skipped + skipped
          occupancy := Dict.set key after done.occupancy }
        rest

def remapRowsAgainstOccupancy (rows : List InboxRow)
    (occupancy : List (InboxKey × Occupancy)) : Remapped :=
  remapGroups contentSha1
    { out := []
      skipped := 0
      occupancy := occupancy }
    (groupRows rows)

end Remap

end Daemon
end Minni
