import LibuvServer.Database.Database
import Mathlib.Tactic.Common

/-!
# Tables of query results

A result set by its cells, and the table that `mysqlOperationQue` makes of
it. The cells of a row are fetched by the name of their column, and two
columns can have one name.
-/

namespace LibuvServer.Database

open LibuvServer.Lib LibuvServer.Lib.LuaStack LibuvServer.Netbus LibuvServer.Mylua

/-! ## Cells -/

/-- The texts of the cells, row by row. -/
structure Cells where
  columnNames : List Bytes
  rows : List (List Bytes)
  shape : ∀ row ∈ rows, row.length = columnNames.length

/-- `getString` of a name: the first column that has it. -/
def getString (columnNames row : List Bytes) (name : Bytes) : Option Bytes :=
  (columnNames.zip row).lookup name

/-- What the driver gives for the names that the loops ask for. `getString`
throws when no column has the name. -/
def Cells.resultSet (cells : Cells) : Option ResultSet :=
  if ∀ row ∈ cells.rows, ∀ colName ∈ cells.columnNames,
      getString cells.columnNames row (cString colName) ≠ none then
    some { columnNames := cells.columnNames,
           rows := cells.rows.map fun row name =>
             (getString cells.columnNames row name).getD [] }
  else none

/-- The stack with which the function is called. -/
def Cells.operationQue (cells : Cells) : Act := fun stack =>
  cells.resultSet.bind fun result => mysqlOperationQue (none, some result) stack

/-! ## What is wanted -/

def IsText (text : Bytes) (value : LuaStackValue) : Prop := value = .string text

/-- The names of the columns, and under them row by row what is in the
cells. -/
def Cells.Shown (cells : Cells) (value : LuaStackValue) : Prop :=
  TableOf (TableOf IsText) (cells.columnNames :: cells.rows) value

/-- `colInfo` and `i` pass the last column by one, and `index` the last row. -/
def Cells.Counted (cells : Cells) : Prop :=
  cells.columnNames.length + 1 < 2 ^ 31 ∧ cells.rows.length + 2 < 2 ^ 31

/-- No counter overflows, and the function gets `nil` and the table. -/
def Cells.Reproduced (cells : Cells) (stack : Stack) : Prop :=
  cells.Counted ∧
    ∃ value, cells.operationQue stack = some (value :: .nil :: .nil :: stack) ∧ cells.Shown value

/-- Columns that share a name have the same text. -/
def Agree (columnNames row : List Bytes) : Prop :=
  ∀ p ∈ columnNames.zip row, ∀ q ∈ columnNames.zip row, p.1 = q.1 → p.2 = q.2

/-- There is no zero byte in a name or a cell, and the columns of one name
agree in every row. -/
def Cells.Plain (cells : Cells) : Prop :=
  (∀ colName ∈ cells.columnNames, 0 ∉ colName) ∧
    ∀ row ∈ cells.rows, (∀ text ∈ row, 0 ∉ text) ∧ Agree cells.columnNames row

/-! ## One row -/

theorem exists_lookup {α β : Type} [BEq α] [LawfulBEq α] {l : List (α × β)} {a : α} {b : β}
    (h : (a, b) ∈ l) : ∃ b', l.lookup a = some b' ∧ (a, b') ∈ l := by
  cases hlookup : l.lookup a with
  | none =>
    rw [List.lookup_eq_none_iff] at hlookup
    exact absurd (beq_self_eq_true a) (by simpa using hlookup (a, b) h)
  | some b' =>
    obtain ⟨l₁, l₂, rfl, -⟩ := List.lookup_eq_some_iff.mp hlookup
    exact ⟨b', rfl, List.mem_append_right _ (.head _)⟩

/-- What is stored for a name: its first column, up to a zero byte. -/
def stored (columnNames row : List Bytes) (name : Bytes) : Bytes :=
  cString ((getString columnNames row name).getD [])

/-- A row is stored as it is when it has no zero byte and its columns of one
name agree. -/
theorem map_stored_eq_iff {columnNames row : List Bytes}
    (hshape : row.length = columnNames.length) :
    columnNames.map (stored columnNames row) = row ↔
      (∀ text ∈ row, 0 ∉ text) ∧ Agree columnNames row := by
  rw [← List.forall₂_eq_eq_eq, List.forall₂_map_left_iff, List.forall₂_iff_zip]
  constructor
  · rintro ⟨-, hstored⟩
    have hzero : ∀ text ∈ row, 0 ∉ text := by
      intro text htext
      obtain ⟨name, hpair⟩ : ∃ name, (name, text) ∈ columnNames.zip row := by
        have hcells : (columnNames.zip row).map Prod.snd = row := List.map_snd_zip (by omega)
        rw [← hcells, List.mem_map] at htext
        obtain ⟨p, hp, rfl⟩ := htext
        exact ⟨p.1, hp⟩
      rw [← hstored hpair]
      exact zero_notMem_cString _
    refine ⟨hzero, fun p hp q hq hname => ?_⟩
    calc p.2 = stored columnNames row p.1 := (hstored hp).symm
      _ = stored columnNames row q.1 := by rw [hname]
      _ = q.2 := hstored hq
  · rintro ⟨hzero, hagree⟩
    refine ⟨hshape.symm, fun {name text} hpair => ?_⟩
    obtain ⟨first, hlookup, hfirst⟩ := exists_lookup hpair
    have htext : first = text := hagree _ hfirst _ hpair rfl
    have hcell : text ∈ row := (List.of_mem_zip hpair).2
    unfold stored getString
    rw [hlookup, htext]
    exact cString_eq_self_iff.mpr (hzero text hcell)

/-! ## The table -/

def textTable (texts : List Bytes) : LuaStackValue :=
  .table (fieldsFrom 1 (texts.map .string) [])

theorem textTable_pushes (texts : List Bytes) :
    Pushes (pushTable (texts.map pushstring)) (textTable (texts.map cString)) := by
  rw [textTable, List.map_map]
  exact pushTable_pushes (forall₂_pushes pushstring_pushes texts)

/-- A table of texts shows the texts it was made from. -/
theorem tableOf_textTable {texts stored : List Bytes} (h : texts.length = stored.length) :
    TableOf IsText texts (textTable stored) ↔ stored = texts := by
  rw [textTable, tableOf_fieldsFrom (by rw [List.length_map, h]), List.forall₂_map_right_iff]
  constructor
  · intro hall
    rw [← List.forall₂_eq_eq_eq]
    exact (hall.imp fun _ _ heq => LuaStackValue.string.inj heq).flip
  · rintro rfl
    exact List.forall₂_same.mpr fun _ _ => rfl

/-- The table that the loops make. -/
def Cells.table (cells : Cells) : LuaStackValue :=
  .table (fieldsFrom 1
    (textTable (cells.columnNames.map cString) ::
      cells.rows.map fun row => textTable
        (cells.columnNames.map fun colName =>
          stored cells.columnNames row (cString colName))) [])

theorem operationQue_eq {cells : Cells} {result : ResultSet}
    (h : cells.resultSet = some result) (stack : Stack) :
    cells.operationQue stack = some (cells.table :: .nil :: .nil :: stack) := by
  unfold Cells.resultSet at h
  split at h
  · rename_i hfound
    have hrow : ∀ row : List Bytes,
        Pushes (pushMysqlQueryRes cells.columnNames fun name =>
            (getString cells.columnNames row name).getD [])
          (textTable (cells.columnNames.map fun colName =>
            stored cells.columnNames row (cString colName))) := by
      intro row
      have hpush := textTable_pushes (cells.columnNames.map fun colName =>
        (getString cells.columnNames row (cString colName)).getD [])
      rw [List.map_map, List.map_map] at hpush
      exact hpush
    have hrows := forall₂_pushes hrow cells.rows
    have htable := pushTable_pushes (.cons (textTable_pushes cells.columnNames) hrows)
    unfold Cells.operationQue Cells.resultSet
    rw [if_pos hfound, Option.bind_some]
    show pushTable (_ :: List.map _ (List.map _ cells.rows)) (.nil :: .nil :: stack) = _
    rw [List.map_map]
    exact htable _
  · cases h

/-- The table shows the cells when the names and the rows are stored as they
are. -/
theorem shown_iff (cells : Cells) :
    cells.Shown cells.table ↔
      cells.columnNames.map cString = cells.columnNames ∧
        ∀ row ∈ cells.rows, (cells.columnNames.map fun colName =>
          stored cells.columnNames row (cString colName)) = row := by
  unfold Cells.Shown Cells.table
  rw [tableOf_fieldsFrom (by simp), List.forall₂_cons, List.forall₂_map_right_iff,
    List.forall₂_same, tableOf_textTable (by simp)]
  refine and_congr_right fun _ => forall₂_congr fun row hrow => ?_
  rw [tableOf_textTable (by rw [List.length_map, cells.shape row hrow])]

theorem map_cString_eq_iff (texts : List Bytes) :
    texts.map cString = texts ↔ ∀ text ∈ texts, 0 ∉ text := by
  have hmap := List.map_inj_left (l := texts) (f := cString) (g := id)
  rw [List.map_id] at hmap
  rw [hmap]
  exact forall₂_congr fun text _ => cString_eq_self_iff

/-- With plain names every name that is asked for has a column. -/
theorem exists_resultSet {cells : Cells} (h : ∀ colName ∈ cells.columnNames, 0 ∉ colName) :
    ∃ result, cells.resultSet = some result := by
  unfold Cells.resultSet
  rw [if_pos]
  · exact ⟨_, rfl⟩
  · intro row hrow colName hname hnone
    rw [cString_eq_self_iff.mpr (h colName hname)] at hnone
    -- the row has a cell for the name
    obtain ⟨p, hp, rfl⟩ : ∃ p ∈ cells.columnNames.zip row, p.1 = colName := by
      have hnames : (cells.columnNames.zip row).map Prod.fst = cells.columnNames :=
        List.map_fst_zip (by rw [cells.shape row hrow])
      rw [← hnames, List.mem_map] at hname
      exact hname
    obtain ⟨first, hlookup, -⟩ := exists_lookup hp
    unfold getString at hnone
    rw [hnone] at hlookup
    cases hlookup

/-- **The table reproduces the result set** exactly when no counter overflows,
no name and no cell has a zero byte, and the columns that share a name agree
in every row. -/
theorem queryTable_reproduced (cells : Cells) (stack : Stack) :
    cells.Reproduced stack ↔ cells.Counted ∧ cells.Plain := by
  refine and_congr_right fun _ => ?_
  have hplain : cells.Plain ↔ cells.Shown cells.table := by
    rw [shown_iff, map_cString_eq_iff]
    refine and_congr_right fun hnames => forall₂_congr fun row hrow => ?_
    have hasked : (cells.columnNames.map fun colName =>
        stored cells.columnNames row (cString colName)) =
          cells.columnNames.map (stored cells.columnNames row) :=
      List.map_congr_left fun colName hname => by
        rw [cString_eq_self_iff.mpr (hnames colName hname)]
    rw [hasked, map_stored_eq_iff (cells.shape row hrow)]
  constructor
  · rintro ⟨value, hque, hshown⟩
    obtain ⟨result, hresult, -⟩ := Option.bind_eq_some_iff.mp hque
    rw [operationQue_eq hresult, Option.some.injEq, List.cons.injEq] at hque
    obtain ⟨rfl, -⟩ := hque
    exact hplain.mpr hshown
  · intro h
    obtain ⟨result, hresult⟩ := exists_resultSet h.1
    exact ⟨_, operationQue_eq hresult stack, hplain.mp h⟩

/-- Two tables joined: both have a column `id`. -/
def joined : Cells where
  columnNames := [strBytes "id", strBytes "id"]
  rows := [[strBytes "1", strBytes "2"]]
  shape := by
    intro row hrow
    rw [List.mem_singleton.mp hrow]
    rfl

/-- The first `id` is stored twice. -/
theorem queryTable_reproduced_joined : ¬ joined.Reproduced [] := by
  rintro ⟨-, value, hque, hshown⟩
  obtain ⟨result, hresult, -⟩ := Option.bind_eq_some_iff.mp hque
  rw [operationQue_eq hresult, Option.some.injEq, List.cons.injEq] at hque
  obtain ⟨rfl, -⟩ := hque
  have hrow := ((shown_iff joined).mp hshown).2 _ (.head _)
  exact absurd hrow (by decide +kernel)

end LibuvServer.Database
