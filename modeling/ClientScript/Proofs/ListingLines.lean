import ClientScript.Listing
import ClientScript.Proofs.AlignedColumns
import ClientScript.Proofs.Building
import ClientScript.Proofs.PrintableText

/-!
Lines of a listing. It has a line for each block, followed by one for each instruction of the block in order, and at
the end one for the opaque instructions if there are any. No operand and no value on a stack breaks a line, since every
character of the listing is printable.
-/

namespace ClientScript

def Block.indices (block : Block) : List Nat :=
  List.range' block.first.toNat (block.last + 1 - block.first).toNat

theorem Block.Occupies.indices_eq {insts : List Instruction} {position first last : Nat} {block : Block}
    (occupies : block.Occupies insts position first last) : block.indices = List.range' first (last + 1 - first) := by
  rw [Block.indices, occupies.first_eq, occupies.last_eq]
  congr 1
  omega

theorem Covers.flatMap_indices {insts : List Instruction} {position first : Nat} {blocks : List Block}
    (covers : Covers insts position first blocks) :
    blocks.flatMap Block.indices = List.range' first (insts.length - first) := by
  induction covers with
  | done => simp
  | @block position first last head rest occupies later ih =>
    have bound := occupies.last_lt
    have order := occupies.order
    calc (head :: rest).flatMap Block.indices
      _ = List.range' first (last + 1 - first) ++ List.range' (last + 1) (insts.length - (last + 1)) := by
        rw [List.flatMap_cons, occupies.indices_eq, ih]
      _ = List.range' first (last + 1 - first) ++
          List.range' (first + (last + 1 - first)) (insts.length - (last + 1)) := by
        rw [Nat.add_sub_cancel' (by omega)]
      _ = List.range' first (insts.length - first) := by
        rw [List.range'_append_1]
        congr 1
        omega

namespace Graph

inductive Item where
  | header (block : Block)
  | instruction (index : Nat)
  | closing

def items (graph : Graph) : List Item :=
  (graph.blocks.flatMap fun block => .header block :: block.indices.map .instruction) ++
    if graph.program.insts.any fun inst => inst.desc.isOpaque then [.closing] else []

def Prints (withStack : Bool) (program : Program) : Item → List Char → Prop
  | .header block, line => line = (headerLine block).toList
  | .instruction index, line => ∃ inst edges, program.insts[index]? = some inst ∧ inst.index = index ∧
      program.edges[index]? = some edges ∧ Columns.Shows (instructionColumns withStack inst edges) line
  | .closing, line => line = ("opaque instructions at " ++ idList program.opaqueOffsets).toList

theorem allPrintable_headerLine (block : Block) : AllPrintable (headerLine block) := by
  have number : AllPrintable ("block " ++ toString block.id) := .append (.of_ascii (by decide)) (.int _)
  have span := (number.between " [" (by decide) (.int block.start)).between ", " (by decide)
    (.int block.stop)
  have links := (span.between ") preds: " (by decide) (.ids block.preds)).between " succs: "
    (by decide) (.ids block.succs)
  refine links.append ?_
  split
  next => exact .of_ascii (by decide)
  next => exact .of_ascii (by decide)

theorem allPrintable_columns (withStack : Bool) (inst : Instruction) (edges : List Edge) :
    ∀ text ∈ instructionColumns withStack inst edges, AllPrintable text := by
  intro text member
  simp only [instructionColumns, List.mem_append] at member
  rcases member with (fixed | targets) | values
  · simp only [List.mem_cons, List.not_mem_nil, or_false] at fixed
    rcases fixed with rfl | rfl | rfl | rfl | rfl
    · exact .append (.of_ascii (by decide)) (.nat _)
    · exact .int _
    · exact .name _
    · exact .operand inst
    · exact .depth _
  · split at targets
    next => cases targets
    next =>
      rw [List.mem_singleton.1 targets]
      exact .append (.of_ascii (by decide)) (.ids _)
  · split at values
    next frame _ =>
      rw [List.mem_singleton.1 values]
      exact .frame frame
    next => cases values

/-- The row is the one to show what the item is about, and its line is printable. -/
def IsRowOf (withStack : Bool) (program : Program) (item : Item) (row : Row) : Prop :=
  ∀ line, Columns.Shows (row.cells ++ [row.tail]) line →
    Prints withStack program item line ∧ ∀ char ∈ line, isPrintable char

theorem isRowOf_bare {withStack : Bool} {program : Program} {item : Item} {text : String} (clear : AllPrintable text)
    (said : Prints withStack program item text.toList) : IsRowOf withStack program item ⟨[], text⟩ := by
  intro line shown
  rw [(Columns.shows_singleton_iff text line).1 shown]
  exact ⟨said, clear⟩

theorem isRowOf_instruction {withStack : Bool} {program : Program} {index : Nat} {inst : Instruction}
    {edges : List Edge} (found : program.insts[index]? = some inst) (numbered : inst.index = index)
    (given : program.edges[index]? = some edges) :
    IsRowOf withStack program (.instruction index) (rowOf (instructionColumns withStack inst edges)) := by
  intro line shown
  have columns : (rowOf (instructionColumns withStack inst edges)).cells ++
      [(rowOf (instructionColumns withStack inst edges)).tail] = instructionColumns withStack inst edges := by
    have some_column : instructionColumns withStack inst edges ≠ [] := by simp [instructionColumns]
    rw [rowOf, List.getLast?_eq_some_getLast some_column]
    exact List.dropLast_append_getLast some_column
  rw [columns] at shown
  exact ⟨⟨inst, edges, found, numbered, given, shown⟩,
    shown.forall_mem (by decide) (allPrintable_columns withStack inst edges)⟩

theorem forall₂_blockRows {program : Program} (ordered : InOrder program.insts)
    (long : program.edges.length = program.insts.length) (withStack : Bool) {position first last : Nat} {block : Block}
    (occupies : block.Occupies program.insts position first last) :
    List.Forall₂ (IsRowOf withStack program) (.header block :: block.indices.map .instruction)
      (blockRows withStack program block) := by
  refine .cons (isRowOf_bare (allPrintable_headerLine block) rfl) ?_
  rw [List.forall₂_map_left_iff, List.forall₂_map_right_iff]
  have bound := occupies.last_lt
  have order := occupies.order
  have members := forall₂_range'_drop (program.insts.zip program.edges) block.first.toNat
    (block.last + 1 - block.first).toNat (by
      rw [List.length_zip, long, occupies.first_eq, occupies.last_eq]
      omega)
  refine members.imp ?_
  intro index member found
  obtain ⟨located, given⟩ := List.getElem?_zip_eq_some.1 found
  exact isRowOf_instruction located (ordered.index_eq index _ located) given

theorem forall₂_opaqueRows (withStack : Bool) (program : Program) :
    List.Forall₂ (IsRowOf withStack program)
      (if program.insts.any fun inst => inst.desc.isOpaque then [.closing] else []) (opaqueRows program) := by
  have named : program.opaqueOffsets.isEmpty = !program.insts.any fun inst => inst.desc.isOpaque := by
    rw [Program.opaqueOffsets, List.isEmpty_map, Bool.eq_iff_iff, List.isEmpty_iff, List.filter_eq_nil_iff]
    simp
  rw [opaqueRows, named]
  cases program.insts.any fun inst => inst.desc.isOpaque with
  | false => exact .nil
  | true =>
    exact .cons (isRowOf_bare (.append (.of_ascii (by decide)) (.ids _)) rfl) .nil

theorem forall₂_rows {program : Program} {graph : Graph} (graphOf : IsGraphOf program graph)
    (ordered : InOrder program.insts) (long : program.edges.length = program.insts.length) (withStack : Bool) :
    List.Forall₂ (IsRowOf withStack program) graph.items (graph.rows withStack) := by
  have blocks : ∀ position first (blocks : List Block), Covers program.insts position first blocks →
      List.Forall₂ (IsRowOf withStack program)
        (blocks.flatMap fun block => .header block :: block.indices.map .instruction)
        (blocks.flatMap (blockRows withStack program)) := by
    intro position first blocks covers
    induction covers with
    | done => exact .nil
    | block occupies _ ih => exact List.rel_append (forall₂_blockRows ordered long withStack occupies) ih
  rw [items, rows, graphOf.program_eq]
  exact List.rel_append (blocks 0 0 _ graphOf.covers) (forall₂_opaqueRows withStack program)

end Graph

/-- The listing of decoded and resolved code. Cut at its line breaks it is the lines of the items, the last break at its
end, and among the items is each instruction once. -/
theorem listing_lines {callee : Int32 → Option Signature} {decoder : Decoder} {code : List UInt8} {start : Int}
    {insts : List Instruction} {options : FlowOptions} {program : Program} {graph : Graph}
    (decoded : decoder.decode callee code start = .ok insts) (resolved : resolve options insts = .ok program)
    (built : Graph.build program = .ok graph) (withStack : Bool) :
    ∃ lines, (graph.listing withStack).toList.splitOn '\n' = lines ++ [[]] ∧
      List.Forall₂ (Graph.Prints withStack program) graph.items lines ∧
      (∀ line ∈ lines, ∀ char ∈ line, isPrintable char) ∧
      graph.blocks.flatMap Block.indices = List.range insts.length := by
  obtain ⟨rfl, -, long, -⟩ := exits_of_resolve resolved
  have graphOf := Graph.isGraphOf_of_build built
  have shown := forall₂_trans (fun item row line isRow shown => isRow line shown)
    (Graph.forall₂_rows graphOf (inOrder_of_decode decoded) long withStack)
    (Columns.forall₂_lines (graph.rows withStack))
  have lines : List.Forall₂
      (fun line item => (∀ char ∈ line, isPrintable char) ∧ Graph.Prints withStack program item line)
      ((Columns.lines (graph.rows withStack)).map String.toList) graph.items :=
    List.Forall₂.flip (shown.imp fun _ _ parts => parts.symm)
  obtain ⟨clear, said⟩ := (List.forall₂_and_left _ _).1 lines
  refine ⟨_, Columns.splitOn_unlines _ ?_, said.flip, clear, ?_⟩
  · intro line member breaks
    have printable := clear _ (List.mem_map.2 ⟨line, member, rfl⟩) _ breaks
    revert printable
    decide +kernel
  · rw [graphOf.covers.flatMap_indices, Nat.sub_zero, List.range_eq_range']

/-- A text with a tab, a line break and a form feed in it, an opaque instruction and a return have five lines. -/
theorem listing_lines_breaks :
    ∃ insts program graph lines,
      Decoder.decode (fun _ => none) {} [0, 3, 97, 9, 98, 10, 12, 0, 0x07, 0x87, 0, 0, 21, 0] 0 = .ok insts ∧
      insts.map (fun inst => inst.operand.toText) = ["a\tb\n\x0c", "", ""] ∧ resolve {} insts = .ok program ∧
      Graph.build program = .ok graph ∧ (graph.listing true).toList.splitOn '\n' = lines ++ [[]] ∧
      lines.length = 5 ∧ ∀ line ∈ lines, ∀ char ∈ line, isPrintable char := by
  have decoded : Decoder.decode (fun _ => none) {} [0, 3, 97, 9, 98, 10, 12, 0, 0x07, 0x87, 0, 0, 21, 0] 0 = .ok _ :=
    Decoder.decode_of_within 3 (by decide) rfl rfl
  obtain ⟨lines, split, said, clear, -⟩ := listing_lines decoded (rfl : resolve {} _ = .ok _) rfl true
  exact ⟨_, _, _, lines, decoded, rfl, rfl, rfl, split, said.length_eq.symm.trans rfl, clear⟩

end ClientScript
