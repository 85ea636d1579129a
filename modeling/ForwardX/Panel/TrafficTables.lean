import Mathlib.Data.List.Perm.Basic
import ForwardX.Lib.AsciiText
import ForwardX.Lib.Chunks
import ForwardX.Lib.Upsert

/- Counters of traffic on MySQL (`mysqlTrafficCounters.ts`). A batch is written in chunks: rows whose
   keys are there are changed by id in one UPDATE, the others are inserted. Statements and their
   positional parameters are those that the source builds; a statement takes its parameters in the
   order of its text. Keys are compared as text. -/
namespace ForwardX.Panel.TrafficTables
open Upsert Chunks
open AsciiText (utf16)

inductive Cell where
  | num (n : Int)
  | str (s : String)
  deriving DecidableEq

/-- `String(cell)`. -/
def Cell.text : Cell → String
  | .num n => toString n
  | .str s => s

/-- A row under its auto-increment id, its cells in the order of the columns. -/
structure TableRow where
  id : Nat
  cells : List Cell
  deriving DecidableEq

/-- The columns of a table, those of its unique key, and those that a row with a key that is there
adds to or replaces. -/
structure CounterTable where
  columns : List String
  keys : List String
  add : List String
  replace : List String
  keys_mem : ∀ k ∈ keys, k ∈ columns
  changes_free : ∀ c ∈ add ++ replace, c ∉ keys

def cell (cells : List Cell) (i : Nat) : Cell := cells.getD i (.num 0)

namespace CounterTable

def index (T : CounterTable) (name : String) : Nat := T.columns.idxOf name

def keyOf (T : CounterTable) (cells : List Cell) : List String := T.keys.map (fun k => (cell cells (T.index k)).text)

def changes (T : CounterTable) : List (String × Bool) := (T.add ++ T.replace).map (fun c => (c, T.add.contains c))

end CounterTable

/-! ## The order of a batch -/

/-- How two rows compare, by the first of the indexes where they differ. -/
def compareRows : List Nat → List Cell → List Cell → Int
  | [], _, _ => 0
  | i :: rest, a, b =>
    if cell a i ≠ cell b i then
      match cell a i, cell b i with
      | .num x, .num y => x - y
      | x, y => if utf16 x.text < utf16 y.text then -1 else 1
    else compareRows rest a b

def sorted (T : CounterTable) (rows : List (List Cell)) : List (List Cell) :=
  rows.mergeSort (fun a b => decide (compareRows (T.keys.map T.index) a b ≤ 0))

/-! ## Statements -/

/-- `SELECT id, keys … WHERE (keys) IN ((?, …), …)`. -/
structure SelectSql where
  keys : List String
  tuples : Nat

/-- `column = [column +] CASE id WHEN ? THEN ? … ELSE … END`. -/
structure Assignment where
  column : String
  add : Bool
  cases : Nat

/-- `UPDATE … SET assignments WHERE id IN (?, …)`. -/
structure UpdateSql where
  assignments : List Assignment
  ids : Nat

/-- `INSERT INTO … (columns) VALUES (?, …), … ON DUPLICATE KEY UPDATE …`. -/
structure InsertSql where
  columns : List String
  tuples : Nat
  onDuplicate : List (String × Bool)

def tuplesOf (width : Nat) : Nat → List Cell → List (List Cell)
  | 0, _ => []
  | n + 1, params => params.take width :: tuplesOf width n (params.drop width)

/-- So many `WHEN ? THEN ?`, and the parameters that are left. -/
def casesOf : Nat → List Cell → List (Cell × Cell) × List Cell
  | n + 1, id :: value :: params =>
    let rest := casesOf n params
    ((id, value) :: rest.1, rest.2)
  | _, params => ([], params)

def bindAssignments : List Assignment → List Cell → List (Assignment × List (Cell × Cell)) × List Cell
  | [], params => ([], params)
  | a :: rest, params =>
    let cases := casesOf a.cases params
    let bound := bindAssignments rest cases.2
    ((a, cases.1) :: bound.1, bound.2)

def CounterTable.keyCells (T : CounterTable) (keys : List String) (cells : List Cell) : List Cell :=
  keys.map (fun k => cell cells (T.index k))

def SelectSql.query (T : CounterTable) (sql : SelectSql) (params : List Cell) (t : Table TableRow) : List (Nat × List Cell) :=
  let tuples := (tuplesOf sql.keys.length sql.tuples params).map (fun tuple => tuple.map Cell.text)
  (t.rows.filter (fun r => tuples.contains ((T.keyCells sql.keys r.cells).map Cell.text))).map
    (fun r => (r.id, T.keyCells sql.keys r.cells))

section
variable (plus : Cell → Cell → Cell)

/-- One assignment of an UPDATE on the row with an id. -/
def assign (T : CounterTable) (id : Nat) (cells : List Cell) (a : Assignment × List (Cell × Cell)) : List Cell :=
  let i := T.index a.1.column
  let value := (a.2.lookup (.num id)).getD (if a.1.add then .num 0 else cell cells i)
  cells.set i (if a.1.add then plus (cell cells i) value else value)

def UpdateSql.execute (T : CounterTable) (sql : UpdateSql) (params : List Cell) (t : Table TableRow) : Table TableRow :=
  let bound := bindAssignments sql.assignments params
  { t with rows := t.rows.map fun r =>
      if Cell.num r.id ∈ bound.2.take sql.ids then { r with cells := bound.1.foldl (assign plus T r.id) r.cells } else r }

/-- What ON DUPLICATE KEY UPDATE makes of a row. -/
def duplicate (T : CounterTable) (onDuplicate : List (String × Bool)) (old new : List Cell) : List Cell :=
  onDuplicate.foldl (fun cells c =>
    cells.set (T.index c.1) (if c.2 then plus (cell cells (T.index c.1)) (cell new (T.index c.1)) else cell new (T.index c.1))) old

/-- One tuple of an INSERT; its columns are those of the table. -/
def insertRow (T : CounterTable) (onDuplicate : List (String × Bool)) (t : Table TableRow) (tuple : List Cell) : Table TableRow :=
  if (t.rows.map (fun r => T.keyOf r.cells)).contains (T.keyOf tuple) then
    { t with rows := t.rows.map fun r =>
        if T.keyOf r.cells = T.keyOf tuple then { r with cells := duplicate plus T onDuplicate r.cells tuple } else r }
  else ⟨t.rows ++ [⟨t.next, tuple⟩], t.next + 1⟩

def InsertSql.execute (T : CounterTable) (sql : InsertSql) (params : List Cell) (t : Table TableRow) : Table TableRow :=
  (tuplesOf sql.columns.length sql.tuples params).foldl (insertRow plus T sql.onDuplicate) t

/-! ## The function -/

/-- `ids.get`. -/
def idOf (ids : List (List String × Nat)) (key : List String) : Option Nat :=
  (ids.find? (fun e => decide (e.1 = key))).map Prod.snd

/-- One chunk of `writeMysqlTrafficCounters`; the keys that are found are distinct, so no entry of
`ids` takes the place of another. -/
def writeChunk (T : CounterTable) (t : Table TableRow) (rows : List (List Cell)) : Table TableRow :=
  let existing := SelectSql.query T ⟨T.keys, rows.length⟩ (rows.flatMap fun row => T.keyCells T.keys row) t
  let ids : List (List String × Nat) := existing.map (fun e => (e.2.map Cell.text, e.1))
  let id := fun row => (idOf ids (T.keyOf row)).getD 0
  let updates := (rows.filter (fun row => (idOf ids (T.keyOf row)).isSome)).mergeSort (fun a b => decide (id a ≤ id b))
  let t :=
    if updates.isEmpty then t
    else
      let params := T.changes.flatMap (fun c => updates.flatMap (fun row => [.num (id row), cell row (T.index c.1)]))
      UpdateSql.execute plus T ⟨T.changes.map (fun c => ⟨c.1, c.2, updates.length⟩), updates.length⟩
        (params ++ updates.map (fun row => .num (id row))) t
  let inserts := rows.filter (fun row => !(idOf ids (T.keyOf row)).isSome)
  if inserts.isEmpty then t
  else InsertSql.execute plus T ⟨T.columns, inserts.length, T.changes⟩ inserts.flatten t

def writeMysqlTrafficCounters (T : CounterTable) (t : Table TableRow) (rows : List (List Cell)) : Table TableRow :=
  (chunks 64 (sorted T rows)).foldl (writeChunk plus T) t

/-- One `INSERT … ON CONFLICT (keys) DO UPDATE` of a batch. -/
def upsertRows (T : CounterTable) (t : Table TableRow) (rows : List (List Cell)) : Table TableRow :=
  rows.foldl (insertRow plus T T.changes) t

end

/-! ## Parameters -/

theorem tuplesOf_flatMap {α : Type} {f : α → List Cell} {width : Nat} {xs : List α} (h : ∀ x ∈ xs, (f x).length = width) :
    tuplesOf width xs.length (xs.flatMap f) = xs.map f := by
  induction xs with
  | nil => rfl
  | cons x xs ih =>
    have hx := h x List.mem_cons_self
    rw [List.length_cons, List.flatMap_cons, tuplesOf, List.take_left' hx, List.drop_left' hx,
      ih fun y hy => h y (List.mem_cons_of_mem _ hy), List.map_cons]

theorem casesOf_flatMap {α : Type} (id value : α → Cell) (xs : List α) (rest : List Cell) :
    casesOf xs.length (xs.flatMap (fun x => [id x, value x]) ++ rest) = (xs.map (fun x => (id x, value x)), rest) := by
  induction xs with
  | nil =>
    cases rest with
    | nil => rfl
    | cons => rfl
  | cons x xs ih =>
    show casesOf (xs.length + 1) (id x :: value x :: (xs.flatMap (fun x => [id x, value x]) ++ rest)) = _
    rw [casesOf, ih]
    rfl

theorem bindAssignments_eq {α : Type} (id : α → Cell) (value : String → α → Cell) (xs : List α) (cs : List (String × Bool))
    (rest : List Cell) :
    bindAssignments (cs.map (fun c => ⟨c.1, c.2, xs.length⟩))
        (cs.flatMap (fun c => xs.flatMap (fun x => [id x, value c.1 x])) ++ rest) =
      (cs.map (fun c => (⟨c.1, c.2, xs.length⟩, xs.map (fun x => (id x, value c.1 x)))), rest) := by
  induction cs with
  | nil => rfl
  | cons c cs ih =>
    rw [List.map_cons, List.flatMap_cons, List.append_assoc, bindAssignments]
    simp only [casesOf_flatMap, ih, List.map_cons]

/-! ## What a statement does -/

section
variable (plus : Cell → Cell → Cell) {T : CounterTable} {t : Table TableRow} {rows : List (List Cell)}

theorem index_ne {c k : String} (hk : k ∈ T.keys) (hc : c ∉ T.keys) : T.index c ≠ T.index k := by
  intro h
  have hmem := T.keys_mem k hk
  have hlt : T.index k < T.columns.length := List.idxOf_lt_length_of_mem hmem
  have hc' : T.index c < T.columns.length := h ▸ hlt
  have hget := List.getElem_idxOf hlt
  have hget' := List.getElem_idxOf hc'
  have heq : c = k := by
    rw [← hget, ← hget']
    congr 1
  exact hc (heq ▸ hk)

theorem cell_set_ne {cells : List Cell} {i j : Nat} (h : i ≠ j) (x : Cell) : cell (cells.set i x) j = cell cells j := by
  rw [cell, cell, List.getD_eq_getElem?_getD, List.getElem?_set_ne h, List.getD_eq_getElem?_getD]

theorem keyOf_duplicate {onDuplicate : List (String × Bool)} (h : ∀ c ∈ onDuplicate, c.1 ∉ T.keys) (old new : List Cell) :
    T.keyOf (duplicate plus T onDuplicate old new) = T.keyOf old := by
  unfold duplicate
  induction onDuplicate generalizing old with
  | nil => rfl
  | cons c rest ih =>
    rw [List.foldl_cons, ih fun x hx => h x (List.mem_cons_of_mem _ hx)]
    refine List.map_congr_left fun k hk => ?_
    rw [cell_set_ne (index_ne hk (h c List.mem_cons_self))]

theorem keyFree_changes (T : CounterTable) : ∀ c ∈ T.changes, c.1 ∉ T.keys := by
  intro c hc
  obtain ⟨name, hname, rfl⟩ := List.mem_map.mp hc
  exact T.changes_free name hname

/-- Insert or update, for the rows of a table. -/
def CounterTable.scheme (T : CounterTable) : Scheme TableRow (List Cell) (List String) where
  key r := T.keyOf r.cells
  keyOf := T.keyOf
  merge r x := { r with cells := duplicate plus T T.changes r.cells x }
  make n x := ⟨n, x⟩
  key_merge r x := keyOf_duplicate plus (keyFree_changes T) r.cells x
  key_make _ _ := rfl

theorem insertRow_eq (T : CounterTable) (t : Table TableRow) (x : List Cell) :
    insertRow plus T T.changes t x = (T.scheme plus).insert t x := by
  by_cases hmem : T.keyOf x ∈ t.rows.map (fun r => T.keyOf r.cells)
  · rw [insertRow, if_pos (List.contains_iff_mem.mpr hmem)]
    exact (insert_of_mem (S := T.scheme plus) hmem).symm
  · rw [insertRow, if_neg (mt List.contains_iff_mem.mp hmem)]
    exact (insert_of_notMem (S := T.scheme plus) hmem).symm

theorem upsertRows_eq (T : CounterTable) (t : Table TableRow) (rows : List (List Cell)) :
    upsertRows plus T t rows = (T.scheme plus).insertAll t rows := by
  have hfun : insertRow plus T T.changes = (T.scheme plus).insert := by
    funext t x
    exact insertRow_eq plus T t x
  rw [upsertRows, hfun, Scheme.insertAll]

structure TableOk (T : CounterTable) (t : Table TableRow) : Prop where
  keys : (t.rows.map (fun r => T.keyOf r.cells)).Nodup
  ids : (t.rows.map TableRow.id).Nodup
  next : ∀ r ∈ t.rows, r.id < t.next

theorem TableOk.insert (h : TableOk T t) (x : List Cell) : TableOk T ((T.scheme plus).insert t x) := by
  have hkeys := nodup_insert (S := T.scheme plus) h.keys x
  by_cases hmem : (T.scheme plus).keyOf x ∈ (T.scheme plus).keys t.rows
  · rw [insert_of_mem hmem] at hkeys ⊢
    refine ⟨hkeys, ?_, fun r hr => ?_⟩
    · show ((t.rows.map _).map TableRow.id).Nodup
      rw [List.map_map, List.map_congr_left (g := TableRow.id)]
      · exact h.ids
      · intro r _
        show TableRow.id (if _ then _ else _) = _
        split <;> rfl
    · obtain ⟨s, hs, rfl⟩ := List.mem_map.mp hr
      split
      · exact h.next s hs
      · exact h.next s hs
  · rw [insert_of_notMem hmem] at hkeys ⊢
    refine ⟨hkeys, ?_, fun r hr => ?_⟩
    · rw [List.map_append, List.map_singleton, ← List.concat_eq_append]
      refine h.ids.concat fun hid => ?_
      obtain ⟨r, hr, hrid⟩ := List.mem_map.mp hid
      have hlt := h.next r hr
      rw [hrid] at hlt
      exact absurd hlt (Nat.lt_irrefl _)
    · rcases List.mem_append.mp hr with hr | hr
      · exact Nat.lt_succ_of_lt (h.next r hr)
      · rw [List.mem_singleton.mp hr]
        exact Nat.lt_succ_self _

theorem TableOk.insertAll (h : TableOk T t) (xs : List (List Cell)) : TableOk T ((T.scheme plus).insertAll t xs) := by
  induction xs generalizing t with
  | nil => exact h
  | cons x xs ih => exact ih (h.insert plus x)

/-- The ids that the SELECT finds: those of the rows with the keys of the chunk. -/
def found (T : CounterTable) (t : Table TableRow) (rows : List (List Cell)) : List (List String × Nat) :=
  (SelectSql.query T ⟨T.keys, rows.length⟩ (rows.flatMap fun row => T.keyCells T.keys row) t).map
    (fun e => (e.2.map Cell.text, e.1))

theorem keyCells_text (cells : List Cell) : (T.keyCells T.keys cells).map Cell.text = T.keyOf cells := by
  rw [CounterTable.keyCells, List.map_map]
  rfl

theorem found_eq (T : CounterTable) (t : Table TableRow) (rows : List (List Cell)) :
    found T t rows = (t.rows.filter (fun r => T.keyOf r.cells ∈ rows.map T.keyOf)).map (fun r => (T.keyOf r.cells, r.id)) := by
  have htuples : (tuplesOf T.keys.length rows.length (rows.flatMap fun row => T.keyCells T.keys row)).map
      (fun tuple => tuple.map Cell.text) = rows.map T.keyOf := by
    rw [tuplesOf_flatMap fun x _ => by rw [CounterTable.keyCells, List.length_map], List.map_map]
    exact List.map_congr_left fun row _ => keyCells_text row
  rw [found, SelectSql.query, htuples, List.map_map]
  simp only [keyCells_text, List.contains_eq_mem]
  exact List.map_congr_left fun r _ => by rw [Function.comp, keyCells_text]

theorem found_idOf (h : TableOk T t) {x : List Cell} (hx : x ∈ rows) {i : Nat} :
    idOf (found T t rows) (T.keyOf x) = some i ↔ ∃ r ∈ t.rows, T.keyOf r.cells = T.keyOf x ∧ r.id = i := by
  rw [found_eq]
  constructor
  · intro hlook
    obtain ⟨e, he, rfl⟩ := Option.map_eq_some_iff.mp hlook
    have hk : e.1 = T.keyOf x := by simpa using List.find?_some he
    obtain ⟨r, hr, rfl⟩ := List.mem_map.mp (List.mem_of_find?_eq_some he)
    exact ⟨r, (List.mem_filter.mp hr).1, hk, rfl⟩
  · rintro ⟨r, hr, hk, rfl⟩
    have hmem : r ∈ t.rows.filter (fun r => decide (T.keyOf r.cells ∈ rows.map T.keyOf)) := by
      refine List.mem_filter.mpr ⟨hr, decide_eq_true ?_⟩
      rw [hk]
      exact List.mem_map.mpr ⟨x, hx, rfl⟩
    unfold idOf
    cases hfind : List.find? (fun e : List String × Nat => decide (e.1 = T.keyOf x))
      ((t.rows.filter (fun r => decide (T.keyOf r.cells ∈ rows.map T.keyOf))).map (fun r => (T.keyOf r.cells, r.id))) with
    | none =>
      have hnone := List.find?_eq_none.mp hfind (T.keyOf r.cells, r.id) (List.mem_map.mpr ⟨r, hmem, rfl⟩)
      exact absurd (decide_eq_true hk) hnone
    | some e =>
      have hek : e.1 = T.keyOf x := by simpa using List.find?_some hfind
      obtain ⟨s, hs, rfl⟩ := List.mem_map.mp (List.mem_of_find?_eq_some hfind)
      have hsame : s = r := List.inj_on_of_nodup_map h.keys (List.mem_filter.mp hs).1 hr (hek.trans hk.symm)
      rw [hsame]
      rfl

theorem found_isSome (h : TableOk T t) {x : List Cell} (hx : x ∈ rows) :
    (idOf (found T t rows) (T.keyOf x)).isSome = true ↔ T.keyOf x ∈ (T.scheme plus).keys t.rows := by
  rw [Option.isSome_iff_exists]
  constructor
  · rintro ⟨i, hi⟩
    obtain ⟨r, hr, hk, _⟩ := (found_idOf h hx).mp hi
    exact List.mem_map.mpr ⟨r, hr, hk⟩
  · intro hmem
    obtain ⟨r, hr, hk⟩ := List.mem_map.mp hmem
    exact ⟨r.id, (found_idOf h hx).mpr ⟨r, hr, hk, rfl⟩⟩

end

end ForwardX.Panel.TrafficTables
