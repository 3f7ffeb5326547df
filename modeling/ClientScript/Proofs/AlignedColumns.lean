import Mathlib
import ClientScript.Proofs.Sequences
import ClientScript.Text.Columns

/-!
Aligned rows. Each row becomes one line, in its place: the cells in order, each with two or more blanks behind it, and
the tail. How wide the columns are does not matter for this.
-/

namespace ClientScript.Columns

/-- The line has the texts in order, with at least the gap between them. -/
inductive Shows : List String → List Char → Prop where
  | last (text : String) : Shows [text] text.toList
  | cell (text : String) {more : List String} {line : List Char} (blanks : Nat) (wide : gap ≤ blanks)
      (later : Shows more line) : Shows (text :: more) (text.toList ++ (List.replicate blanks ' ' ++ line))

theorem shows_singleton_iff (text : String) (line : List Char) : Shows [text] line ↔ line = text.toList := by
  constructor
  · intro shown
    cases shown with
    | last => rfl
    | cell _ _ _ later => cases later
  · intro same
    rw [same]
    exact .last text

theorem Shows.forall_mem {property : Char → Prop} (blank : property ' ') {columns : List String} {line : List Char}
    (shown : Shows columns line) (texts : ∀ text ∈ columns, ∀ char ∈ text.toList, property char) :
    ∀ char ∈ line, property char := by
  induction shown with
  | last text => exact texts text List.mem_cons_self
  | cell text blanks wide later ih =>
    obtain ⟨first, others⟩ := List.forall_mem_cons.1 texts
    intro char mem
    rcases List.mem_append.1 mem with mem | mem
    · exact first char mem
    · rcases List.mem_append.1 mem with mem | mem
      · rw [List.eq_of_mem_replicate mem]
        exact blank
      · exact ih others char mem

/-- Cells that are set, each with at least the gap behind it. -/
inductive Padded : List (List Char) → List Char → Prop where
  | nil : Padded [] []
  | snoc {cells : List (List Char)} {line : List Char} (set : Padded cells line) (cell : List Char) {width : Nat}
      (wide : cell.length + gap ≤ width) : Padded (cells ++ [cell]) (line ++ padCell width cell)

theorem Padded.shows {cells : List String} {front : List Char} (set : Padded (cells.map String.toList) front)
    {columns : List String} {line : List Char} (shown : Shows columns line) :
    Shows (cells ++ columns) (front ++ line) := by
  generalize same : cells.map String.toList = texts at set
  induction set generalizing cells columns line with
  | nil =>
    rw [List.map_eq_nil_iff.1 same]
    exact shown
  | snoc set text wide ih =>
    obtain ⟨cells, last, rfl, rfl, single⟩ := List.map_eq_append_iff.1 same
    obtain ⟨cell, rfl, rfl⟩ := List.map_eq_singleton_iff.1 single
    rw [List.append_assoc, List.append_assoc, padCell, List.append_assoc]
    exact ih (.cell cell _ (by omega) shown) rfl

/-- A row after so many columns are set. -/
structure Partial.IsSet (columns : Nat) (whole row : Partial) : Prop where
  cells_eq : row.cells = whole.cells.drop columns
  tail_eq : row.tail = whole.tail
  padded : Padded (whole.cells.take columns) row.done

/-- The next cell of a row is set, if there is one, in a column that is wide enough. -/
def Partial.Sets (row next : Partial) : Prop :=
  ∃ width, (∀ cell ∈ row.cells.head?, cell.length + gap ≤ width) ∧ next = row.place width

theorem Partial.IsSet.step {columns : Nat} {whole row next : Partial} (set : IsSet columns whole row)
    (sets : row.Sets next) : IsSet (columns + 1) whole next := by
  obtain ⟨width, wide, rfl⟩ := sets
  obtain ⟨cells_eq, tail_eq, padded⟩ := set
  unfold Partial.place
  split
  next none =>
    have short : whole.cells.length ≤ columns := List.drop_eq_nil_iff.1 (cells_eq.symm.trans none)
    refine ⟨?_, tail_eq, ?_⟩
    · rw [none, List.drop_eq_nil_of_le (by omega)]
    · rw [List.take_of_length_le (by omega)]
      rwa [List.take_of_length_le short] at padded
  next cell rest more =>
    have dropped := cells_eq.symm.trans more
    have found : whole.cells[columns]? = some cell := by
      rw [← List.head?_drop, dropped]
      rfl
    refine ⟨?_, tail_eq, ?_⟩
    · rw [← List.tail_drop, dropped]
      rfl
    · rw [List.take_add_one, found]
      exact padded.snoc cell (wide cell (by rw [more]; rfl))

theorem forall₂_placeColumn (rows : List Partial) : List.Forall₂ Partial.Sets rows (placeColumn rows) := by
  have run (run : List Partial) : List.Forall₂ Partial.Sets run (run.map (Partial.place (runWidth run))) := by
    rw [List.forall₂_map_right_iff, List.forall₂_same]
    intro row member
    refine ⟨runWidth run, ?_, rfl⟩
    intro cell first
    have wide := (le_foldl_max (fun row : Partial => (row.cells.headD []).length + gap) run 0).2 row member
    rwa [List.headD_eq_head?_getD, first] at wide
  have runs (all : List (List Partial)) :
      List.Forall₂ Partial.Sets all.flatten (all.flatMap fun run => run.map (Partial.place (runWidth run))) := by
    induction all with
    | nil => exact .nil
    | cons first all ih => exact List.rel_append (run first) ih
  have split := runs (rows.splitBy fun one next => one.cells.isEmpty == next.cells.isEmpty)
  rwa [List.flatten_splitBy] at split

theorem forall₂_repeat (columns : Nat) (rows : List Partial) (fresh : ∀ row ∈ rows, row.done = []) :
    List.Forall₂ (Partial.IsSet columns) rows (columns.repeat placeColumn rows) := by
  induction columns with
  | zero =>
    rw [Nat.repeat, List.forall₂_same]
    intro row member
    refine ⟨rfl, rfl, ?_⟩
    rw [fresh row member]
    exact .nil
  | succ columns ih => exact forall₂_trans (fun _ _ _ set sets => set.step sets) ih (forall₂_placeColumn _)

theorem forall₂_lines (rows : List Row) :
    List.Forall₂ (fun row line => Shows (row.cells ++ [row.tail]) line) rows ((lines rows).map String.toList) := by
  have set := forall₂_repeat (columnCount rows) (rows.map Partial.ofRow) fun row member => by
    obtain ⟨origin, -, rfl⟩ := List.mem_map.1 member
    rfl
  have counted := (le_foldl_max (fun row : Row => row.cells.length) rows 0).2
  rw [List.forall₂_map_left_iff] at set
  rw [lines, align, List.map_map, List.forall₂_map_right_iff]
  refine ((List.forall₂_and_left _ _).2 ⟨counted, set⟩).imp ?_
  intro row part parts
  obtain ⟨few, cells_eq, tail_eq, padded⟩ := parts
  have few : (Partial.ofRow row).cells.length ≤ columnCount rows := by
    rw [Partial.ofRow, List.length_map]
    exact few
  rw [List.drop_eq_nil_of_le few] at cells_eq
  rw [List.take_of_length_le few] at padded
  rw [Function.comp_apply, String.toList_ofList, Partial.text, cells_eq, tail_eq, List.flatten_nil, List.append_nil]
  exact padded.shows (.last row.tail)

theorem splitOn_unlines (lines : List String) (whole : ∀ line ∈ lines, '\n' ∉ line.toList) :
    (unlines lines).toList.splitOn '\n' = lines.map String.toList ++ [[]] := by
  have closed : (unlines lines).toList = ['\n'].intercalate (lines.map String.toList ++ [[]]) := by
    rw [unlines, String.toList_join]
    clear whole
    induction lines with
    | nil => rfl
    | cons line lines ih =>
      rw [List.map_cons, List.flatMap_cons, ih, String.toList_append, List.map_cons, List.cons_append]
      cases lines with
      | nil => simp
      | cons next lines => simp [List.intercalate_cons_cons]
  rw [closed]
  apply List.splitOn_intercalate
  · intro line member
    rcases List.mem_append.1 member with listed | last
    · obtain ⟨origin, mem, rfl⟩ := List.mem_map.1 listed
      exact whole origin mem
    · rw [List.mem_singleton.1 last]
      exact List.not_mem_nil
  · simp

end ClientScript.Columns
