import ChainHead.Assoc
import ChainHead.Bytes

/-!
# The job table

The table holds the jobs whose payload can be fetched: by id, by the parent they stand on, and in
the order in which they were started.  A job is a number here.  There is at most one job on a parent
and at most `JobTable.capacity` in all; `JobTable.superseded?` and `JobTable.evicted` say which jobs
have to go before one is started.
-/

namespace ChainHead

/-- An entry of the table. -/
structure JobEntry where
  /-- The number of the job. -/
  job : Nat
  /-- The hash of the block its payload stands on. -/
  parent : Hash
deriving DecidableEq

/-- The jobs whose payload can be fetched. -/
structure JobTable where
  /-- The entries by id. -/
  entries : Assoc PayloadId JobEntry
  /-- The ids by parent. -/
  byParent : Assoc Hash PayloadId
  /-- The ids from the job that was started first to the one that was started last. -/
  order : List PayloadId

namespace JobTable

/-- The greatest number of jobs in the table. -/
def capacity : Nat := 32

/-- The table without jobs. -/
def empty : JobTable := ⟨.empty, .empty, []⟩

/-- Removes a job. -/
def erase (t : JobTable) (id : PayloadId) : JobTable :=
  match t.entries.get? id with
  | none => t
  | some entry =>
    { entries := t.entries.erase id
      byParent := if t.byParent.get? entry.parent = some id then t.byParent.erase entry.parent
        else t.byParent
      order := t.order.filter (· ≠ id) }

/-- Adds a job. -/
def insert (t : JobTable) (id : PayloadId) (entry : JobEntry) : JobTable where
  entries := t.entries.insert id entry
  byParent := t.byParent.insert entry.parent id
  order := t.order ++ [id]

/-- The job that a new one on the same parent supersedes. -/
def superseded? (t : JobTable) (parent : Hash) : Option PayloadId := t.byParent.get? parent

/-- The jobs that go one after the other, each the earliest of those that are left, until there is
room for one more. -/
def evictions : Nat → JobTable → List PayloadId
  | 0, _ => []
  | fuel + 1, t =>
    if t.entries.size < capacity then []
    else
      match t.order with
      | [] => []
      | oldest :: _ => oldest :: evictions fuel (t.erase oldest)

/-- The jobs that have to go to make room for one more, the earliest first.  Each of them leaves the
table smaller, so its size is enough fuel. -/
def evicted (t : JobTable) : List PayloadId := evictions t.entries.size t

/-- The numbers of the jobs. -/
def jobs (t : JobTable) : List Nat := t.entries.values.map JobEntry.job

end JobTable

end ChainHead
