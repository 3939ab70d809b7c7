import PgSleuth.ForMathlib.LeftJoin
import PgSleuth.ForMathlib.Saturating
import PgSleuth.Postgres.StatStatements

/-!
# The statement poll

`stat_statements::poll`: the view `pg_stat_statements` knows databases and roles by number, and the
query joins their names to each row. A database or a role may have been dropped since; its rows are
reported with an empty name rather than left out.

## Main definitions

* `StatementsView` — the view, and the two catalogs
* `StatementsView.answer`, `poll` — the answer to the query, and the samples made of it

## Main results

* `poll_eq` — the samples are the rows that have a query, each once
-/

namespace PgSleuth

/-- A row of `pg_stat_statements`. -/
structure ViewRow where
  /-- `NULL` for what the poller may not see. -/
  queryid : Option Int64
  dbid : UInt32
  userid : UInt32
  calls : Int64
  totalExecTime : F64
  rows : Int64
  sharedBlksHit : Int64
  sharedBlksRead : Int64

/-- A catalog of named objects. -/
structure Catalog where
  entries : List (UInt32 × String)
  /-- No two have one number. -/
  nodup : (entries.map Prod.fst).Nodup

/-- The name of an object, empty once it has been dropped. -/
def Catalog.name (catalog : Catalog) (oid : UInt32) : String :=
  ((catalog.entries.find? fun e => e.1 = oid).map Prod.snd).getD ""

/-- What the query reads: the rows of the view, in the order in which they are answered, and the
catalogs. -/
structure StatementsView where
  rows : List ViewRow
  pgDatabase : Catalog
  pgRoles : Catalog

/-- A row of the answer. -/
structure StatementRow where
  queryid : Int64
  database : String
  username : String
  calls : Int64
  totalExecTimeMs : F64
  rows : Int64
  sharedBlksHit : Int64
  sharedBlksRead : Int64

namespace StatementsView

variable (view : StatementsView)

/-- The answer to the query: both joins, then the rows that have a query. -/
def answer : List StatementRow :=
  let joined := List.leftJoin (fun s d => d.1 = s.dbid) view.rows view.pgDatabase.entries
  let joined := List.leftJoin (fun sd r => r.1 = sd.1.userid) joined view.pgRoles.entries
  joined.filterMap fun ((s, d), r) =>
    s.queryid.map fun queryid =>
      { queryid, database := (d.map Prod.snd).getD "", username := (r.map Prod.snd).getD ""
        calls := s.calls, totalExecTimeMs := s.totalExecTime, rows := s.rows
        sharedBlksHit := s.sharedBlksHit, sharedBlksRead := s.sharedBlksRead }

end StatementsView

/-- The sample made of a row of the answer. -/
def StatementRow.sample (row : StatementRow) : StatementSample where
  queryid := row.queryid
  database := row.database
  username := row.username
  calls := row.calls.clampToUInt64
  totalExecTimeMs := row.totalExecTimeMs
  rows := row.rows.clampToUInt64
  sharedBlksHit := row.sharedBlksHit.clampToUInt64
  sharedBlksRead := row.sharedBlksRead.clampToUInt64

namespace StatementsView

/-- `stat_statements::poll`. -/
def poll (view : StatementsView) : List StatementSample := view.answer.map StatementRow.sample

/-- The sample of a row of the view, if it has a query. -/
def sampleOf (view : StatementsView) (s : ViewRow) : Option StatementSample :=
  s.queryid.map fun queryid =>
    { queryid, database := view.pgDatabase.name s.dbid, username := view.pgRoles.name s.userid
      calls := s.calls.clampToUInt64, totalExecTimeMs := s.totalExecTime
      rows := s.rows.clampToUInt64, sharedBlksHit := s.sharedBlksHit.clampToUInt64
      sharedBlksRead := s.sharedBlksRead.clampToUInt64 }

/-- **The samples are the rows that have a query**, each once, whatever has been dropped. -/
theorem poll_eq (view : StatementsView) : view.poll = view.rows.filterMap view.sampleOf := by
  rw [poll, answer, List.leftJoin_eq_map view.pgDatabase.nodup,
    List.leftJoin_eq_map view.pgRoles.nodup, List.map_map, List.filterMap_map, List.map_filterMap]
  refine List.filterMap_congr ?_
  intro s _
  simp only [Function.comp_apply, sampleOf, Option.map_map]
  rfl

end StatementsView

end PgSleuth
