import ForwardX.Panel.TrafficTables

/- What `writeMysqlTrafficCounters` leaves. A chunk finds each of its rows in the table by key, so the
   UPDATE by id changes just the rows that an upsert would change, in the same way, and the INSERT meets
   no key that is there (`writeChunk_eq`). The chunks of a sorted batch are then one upsert of the
   batch, but for the order of the new rows. -/
namespace ForwardX.Panel.TrafficTables
open Upsert Chunks

section
variable (plus : Cell → Cell → Cell) {T : CounterTable} {t : Table TableRow} {rows : List (List Cell)}

def idIn (T : CounterTable) (t : Table TableRow) (rows : List (List Cell)) (row : List Cell) : Nat :=
  (idOf (found T t rows) (T.keyOf row)).getD 0

/-- The rows of the chunk that are there, by id. -/
def updatesOf (T : CounterTable) (t : Table TableRow) (rows : List (List Cell)) : List (List Cell) :=
  (rows.filter (fun row => (idOf (found T t rows) (T.keyOf row)).isSome)).mergeSort
    (fun a b => decide (idIn T t rows a ≤ idIn T t rows b))

theorem mem_updatesOf (h : TableOk T t) {x : List Cell} :
    x ∈ updatesOf T t rows ↔ x ∈ rows ∧ T.keyOf x ∈ (T.scheme plus).keys t.rows := by
  rw [updatesOf, List.mem_mergeSort, List.mem_filter]
  exact and_congr_right fun hx => found_isSome plus h hx

/-- A row of the chunk has the id of a row of the table just when it has its key. -/
theorem idIn_eq_iff (h : TableOk T t) {x : List Cell} (hx : x ∈ updatesOf T t rows) {r : TableRow} (hr : r ∈ t.rows) :
    idIn T t rows x = r.id ↔ T.keyOf r.cells = T.keyOf x := by
  obtain ⟨hmem, hkey⟩ := (mem_updatesOf (fun a _ => a) h).mp hx
  obtain ⟨s, hs, hsk⟩ := List.mem_map.mp hkey
  have hid : idOf (found T t rows) (T.keyOf x) = some s.id := (found_idOf h hmem).mpr ⟨s, hs, hsk, rfl⟩
  rw [idIn, hid, Option.getD_some]
  constructor
  · intro heq
    have hsame : s = r := List.inj_on_of_nodup_map h.ids hs hr heq
    rw [← hsame]
    exact hsk
  · intro heq
    have hsame : s = r := List.inj_on_of_nodup_map h.keys hs hr (Eq.trans hsk heq.symm)
    rw [hsame]

theorem lookup_of_unique {α : Type} {id : α → Cell} {value : α → Cell} {xs : List α} {i v : Cell}
    (hall : ∀ x ∈ xs, id x = i → value x = v) (hsome : ∃ x ∈ xs, id x = i) :
    (xs.map (fun x => (id x, value x))).lookup i = some v := by
  induction xs with
  | nil =>
    obtain ⟨x, hx, _⟩ := hsome
    cases hx
  | cons x xs ih =>
    rw [List.map_cons, List.lookup_cons]
    by_cases hx : id x = i
    · rw [beq_iff_eq.mpr hx.symm, hall x List.mem_cons_self hx]
    · rw [beq_false_of_ne (Ne.symm hx)]
      refine ih (fun y hy => hall y (List.mem_cons_of_mem _ hy)) ?_
      obtain ⟨y, hy, hyi⟩ := hsome
      rcases List.mem_cons.mp hy with rfl | hy
      · exact absurd hyi hx
      · exact ⟨y, hy, hyi⟩

/-- The assignments change a row of the table as its own row of the chunk asks. -/
theorem assign_eq_duplicate (h : TableOk T t) (hnd : (rows.map T.keyOf).Nodup) {x : List Cell}
    (hx : x ∈ updatesOf T t rows) {r : TableRow} (hr : r ∈ t.rows) (hk : T.keyOf r.cells = T.keyOf x) (n : Nat) :
    (T.changes.map (fun c => ((⟨c.1, c.2, n⟩ : Assignment),
        (updatesOf T t rows).map (fun y => (Cell.num (idIn T t rows y), cell y (T.index c.1)))))).foldl (assign plus T r.id)
        r.cells = duplicate plus T T.changes r.cells x := by
  have hlookup : ∀ i, ((updatesOf T t rows).map (fun y => (Cell.num (idIn T t rows y), cell y i))).lookup (.num r.id) =
      some (cell x i) := by
    intro i
    refine lookup_of_unique (fun y hy heq => ?_) ⟨x, hx, ?_⟩
    · have hid : idIn T t rows y = r.id := by
        have hcast := Cell.num.inj heq
        omega
      have hky := ((idIn_eq_iff h hy hr).mp hid).symm.trans hk
      have hsame : y = x :=
        List.inj_on_of_nodup_map hnd ((mem_updatesOf plus h).mp hy).1 ((mem_updatesOf plus h).mp hx).1 hky
      rw [hsame]
    · rw [(idIn_eq_iff h hx hr).mpr hk]
  rw [List.foldl_map, duplicate]
  congr 1
  funext cells c
  simp only [assign, hlookup, Option.getD_some]

/-- The UPDATE of a chunk: what its rows make of the rows of the table. -/
theorem update_eq (h : TableOk T t) (hnd : (rows.map T.keyOf).Nodup) :
    UpdateSql.execute plus T
        ⟨T.changes.map (fun c => ⟨c.1, c.2, (updatesOf T t rows).length⟩), (updatesOf T t rows).length⟩
        (T.changes.flatMap (fun c => (updatesOf T t rows).flatMap
            (fun row => [.num (idIn T t rows row), cell row (T.index c.1)])) ++
          (updatesOf T t rows).map (fun row => .num (idIn T t rows row))) t =
      { t with rows := t.rows.map ((T.scheme plus).absorb rows) } := by
  have hbind := bindAssignments_eq (fun row => Cell.num (idIn T t rows row)) (fun c row => cell row (T.index c))
    (updatesOf T t rows) T.changes ((updatesOf T t rows).map (fun row => Cell.num (idIn T t rows row)))
  rw [UpdateSql.execute]
  simp only [hbind]
  rw [List.take_of_length_le (by rw [List.length_map])]
  congr 1
  refine List.map_congr_left fun r hr => ?_
  by_cases hmem : T.keyOf r.cells ∈ rows.map T.keyOf
  · obtain ⟨x, hx, hk⟩ := List.mem_map.mp hmem
    have hup : x ∈ updatesOf T t rows := (mem_updatesOf plus h).mpr ⟨hx, List.mem_map.mpr ⟨r, hr, hk.symm⟩⟩
    have hid : Cell.num r.id ∈ (updatesOf T t rows).map (fun row => Cell.num (idIn T t rows row)) :=
      List.mem_map.mpr ⟨x, hup, by rw [(idIn_eq_iff h hup hr).mpr hk.symm]⟩
    have hfind : rows.find? (fun y => T.keyOf y = T.keyOf r.cells) = some x := by
      cases hy : rows.find? (fun y => T.keyOf y = T.keyOf r.cells) with
      | none => exact absurd (decide_eq_true hk) (List.find?_eq_none.mp hy x hx)
      | some y =>
        have hky : T.keyOf y = T.keyOf r.cells := by simpa using List.find?_some hy
        rw [List.inj_on_of_nodup_map hnd (List.mem_of_find?_eq_some hy) hx (hky.trans hk.symm)]
    rw [if_pos hid, assign_eq_duplicate plus h hnd hup hr hk.symm]
    show _ = ((rows.find? (fun y => T.keyOf y = T.keyOf r.cells)).map _).getD r
    rw [hfind]
    rfl
  · have hid : Cell.num r.id ∉ (updatesOf T t rows).map (fun row => Cell.num (idIn T t rows row)) := by
      intro hid
      obtain ⟨x, hx, heq⟩ := List.mem_map.mp hid
      have hcast : idIn T t rows x = r.id := by
        have := Cell.num.inj heq
        omega
      exact hmem (List.mem_map.mpr ⟨x, ((mem_updatesOf plus h).mp hx).1, ((idIn_eq_iff h hx hr).mp hcast).symm⟩)
    rw [if_neg hid]
    exact (absorb_none (S := T.scheme plus) hmem).symm

/-- The table after the UPDATE of a chunk, if it has one. -/
def updated (T : CounterTable) (t : Table TableRow) (rows : List (List Cell)) : Table TableRow :=
  if (updatesOf T t rows).isEmpty then t
  else
    UpdateSql.execute plus T
      ⟨T.changes.map (fun c => ⟨c.1, c.2, (updatesOf T t rows).length⟩), (updatesOf T t rows).length⟩
      (T.changes.flatMap (fun c => (updatesOf T t rows).flatMap
          (fun row => [.num (idIn T t rows row), cell row (T.index c.1)])) ++
        (updatesOf T t rows).map (fun row => .num (idIn T t rows row))) t

theorem updated_eq (h : TableOk T t) (hnd : (rows.map T.keyOf).Nodup) :
    updated plus T t rows = { t with rows := t.rows.map ((T.scheme plus).absorb rows) } := by
  by_cases hnil : updatesOf T t rows = []
  · -- no row of the chunk is there, so the upsert changes none either
    rw [updated, if_pos (List.isEmpty_iff.mpr hnil), List.map_congr_left (g := id), List.map_id]
    intro r hr
    refine absorb_none fun hmem => ?_
    obtain ⟨x, hx, hk⟩ := List.mem_map.mp hmem
    have hup : x ∈ updatesOf T t rows := (mem_updatesOf plus h).mpr ⟨hx, List.mem_map.mpr ⟨r, hr, hk.symm⟩⟩
    rw [hnil] at hup
    cases hup
  · rw [updated, if_neg (mt List.isEmpty_iff.mp hnil)]
    exact update_eq plus h hnd

def insertsOf (T : CounterTable) (t : Table TableRow) (rows : List (List Cell)) : List (List Cell) :=
  rows.filter (fun row => !(idOf (found T t rows) (T.keyOf row)).isSome)

theorem insertsOf_eq (h : TableOk T t) : insertsOf T t rows = (T.scheme plus).fresh t rows :=
  filter_eq_fresh (S := T.scheme plus) fun _ hx => found_isSome plus h hx

theorem insert_eq {xs : List (List Cell)} (hw : ∀ x ∈ xs, x.length = T.columns.length) (t : Table TableRow) :
    InsertSql.execute plus T ⟨T.columns, xs.length, T.changes⟩ xs.flatten t = (T.scheme plus).insertAll t xs := by
  have htuples : tuplesOf T.columns.length xs.length xs.flatten = xs := by
    have hmap := tuplesOf_flatMap (f := fun x : List Cell => x) hw
    rwa [List.flatMap_id', List.map_id'] at hmap
  rw [InsertSql.execute]
  simp only [htuples]
  exact upsertRows_eq plus T t xs

theorem writeChunk_eq (h : TableOk T t) (hnd : (rows.map T.keyOf).Nodup)
    (hw : ∀ row ∈ rows, row.length = T.columns.length) :
    writeChunk plus T t rows = (T.scheme plus).insertAll t rows := by
  have hwidth : ∀ x ∈ insertsOf T t rows, x.length = T.columns.length := fun x hx => hw x (List.mem_filter.mp hx).1
  have hinsert : (if (insertsOf T t rows).isEmpty then updated plus T t rows
      else InsertSql.execute plus T ⟨T.columns, (insertsOf T t rows).length, T.changes⟩ (insertsOf T t rows).flatten
        (updated plus T t rows)) = (T.scheme plus).insertAll (updated plus T t rows) (insertsOf T t rows) := by
    rw [insert_eq plus hwidth]
    split
    · rename_i hnil
      rw [List.isEmpty_iff.mp hnil]
      rfl
    · rfl
  calc writeChunk plus T t rows
      = (T.scheme plus).insertAll (updated plus T t rows) (insertsOf T t rows) := hinsert
    _ = (T.scheme plus).insertAll { t with rows := t.rows.map ((T.scheme plus).absorb rows) }
          ((T.scheme plus).fresh t rows) := by
        rw [updated_eq plus h hnd, insertsOf_eq plus h]
    _ = (T.scheme plus).insertAll t rows := insertAll_split t hnd

theorem writeChunks_eq (h : TableOk T t) {css : List (List (List Cell))} (hnd : (css.flatten.map T.keyOf).Nodup)
    (hw : ∀ row ∈ css.flatten, row.length = T.columns.length) :
    css.foldl (writeChunk plus T) t = (T.scheme plus).insertAll t css.flatten := by
  induction css generalizing t with
  | nil => rfl
  | cons rows css ih =>
    rw [List.flatten_cons, List.map_append, List.nodup_append] at hnd
    rw [List.flatten_cons] at hw
    rw [List.foldl_cons, List.flatten_cons, insertAll_append,
      writeChunk_eq plus h hnd.1 fun row hrow => hw row (List.mem_append_left _ hrow)]
    exact ih (h.insertAll plus rows) hnd.2.1 fun row hrow => hw row (List.mem_append_right _ hrow)

/-- What a batch with distinct keys leaves on MySQL: the ids and the contents that one upsert of the
batch leaves, up to the order of the new rows. -/
theorem writeMysqlTrafficCounters_upserts (h : TableOk T t) (hnd : (rows.map T.keyOf).Nodup)
    (hw : ∀ row ∈ rows, row.length = T.columns.length) :
    TableOk T (writeMysqlTrafficCounters plus T t rows) ∧
      ∃ old new new' : List TableRow, old.map TableRow.id = t.rows.map TableRow.id ∧
        (writeMysqlTrafficCounters plus T t rows).rows = old ++ new ∧ (upsertRows plus T t rows).rows = old ++ new' ∧
        (new.map TableRow.cells).Perm (new'.map TableRow.cells) := by
  have hperm : (sorted T rows).Perm rows := List.mergeSort_perm rows _
  have hnd' : ((sorted T rows).map T.keyOf).Nodup := (hperm.map _).nodup_iff.mpr hnd
  have hwrite : writeMysqlTrafficCounters plus T t rows = (T.scheme plus).insertAll t (sorted T rows) := by
    have hflat : (chunks 64 (sorted T rows)).flatten = sorted T rows := chunks_flatten (by decide) _
    rw [writeMysqlTrafficCounters, writeChunks_eq plus h (by rwa [hflat]), hflat]
    rw [hflat]
    exact fun row hrow => hw row (hperm.mem_iff.mp hrow)
  have hids : ∀ r, ((T.scheme plus).absorb rows r).id = r.id := by
    intro r
    rw [Scheme.absorb]
    cases rows.find? (fun x => (T.scheme plus).keyOf x = (T.scheme plus).key r) with
    | none => rfl
    | some x => rfl
  have hcontent : ∀ n x, ((T.scheme plus).make n x).cells = ((T.scheme plus).make 0 x).cells := fun _ _ => rfl
  obtain ⟨new, new', hnew, hnew', hcells⟩ := insertAll_perm (S := T.scheme plus) hcontent t hperm.symm hnd
  rw [hwrite, upsertRows_eq]
  refine ⟨h.insertAll plus _, t.rows.map ((T.scheme plus).absorb rows), new', new, ?_, hnew', hnew, hcells.symm⟩
  rw [List.map_map]
  exact List.map_congr_left fun r _ => hids r

end

/-- `user_traffic_counters`, without its connections and times. -/
def userTraffic : CounterTable where
  columns := ["userId", "bytesIn", "bytesOut", "updatedAt"]
  keys := ["userId"]
  add := ["bytesIn", "bytesOut"]
  replace := ["updatedAt"]
  keys_mem := by decide
  changes_free := by decide

def addCells : Cell → Cell → Cell
  | .num x, .num y => .num (x + y)
  | x, _ => x

def user (id bytesIn bytesOut updatedAt : Int) : List Cell := [.num id, .num bytesIn, .num bytesOut, .num updatedAt]

/-- A user with a counter and one without. -/
theorem two_users_upserted :
    ∃ row : TableRow, row.cells = user 9 1 2 200 ∧
      (writeMysqlTrafficCounters addCells userTraffic ⟨[⟨1, user 7 10 20 100⟩], 2⟩ [user 9 1 2 200, user 7 3 4 200]).rows =
        [⟨1, user 7 13 24 200⟩, row] := by
  have hok : TableOk userTraffic ⟨[⟨1, user 7 10 20 100⟩], 2⟩ := ⟨by decide, by decide, by decide⟩
  have hkeys : ([user 9 1 2 200, user 7 3 4 200].map userTraffic.keyOf).Nodup := by decide
  obtain ⟨-, old, new, new', hids, hrows, hupsert, hcells⟩ :=
    writeMysqlTrafficCounters_upserts addCells hok hkeys (by decide)
  have heval : (upsertRows addCells userTraffic ⟨[⟨1, user 7 10 20 100⟩], 2⟩ [user 9 1 2 200, user 7 3 4 200]).rows =
      [⟨1, user 7 13 24 200⟩] ++ [⟨2, user 9 1 2 200⟩] := by decide
  obtain ⟨hold, hnew⟩ := List.append_inj (hupsert.symm.trans heval) (by simpa using congrArg List.length hids)
  rw [hnew] at hcells
  obtain ⟨row, rfl, hrow⟩ := List.map_eq_singleton_iff.mp (List.perm_singleton.mp hcells)
  exact ⟨row, hrow, by rw [hrows, hold]; rfl⟩

end ForwardX.Panel.TrafficTables
