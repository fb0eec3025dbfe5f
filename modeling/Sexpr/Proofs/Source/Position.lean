import Sexpr.Source.Location

/-! Positions and offsets: the position of an offset of a text, and back. -/

namespace Sexpr

/-- The offset at which the line of an offset begins: just behind the last line feed before it. -/
def lineStart (text : List Char) : Nat → Nat
  | 0 => 0
  | offset + 1 => if text[offset]? = some '\n' then offset + 1 else lineStart text offset

/-- The position of an offset: the number of line feeds before it, and its distance from the start
of its line. -/
def positionAt (path : Option Path) (text : List Char) (offset : Nat) : Location where
  line := (text.take offset).count '\n'
  column := (offset : Int) - lineStart text offset
  path

/-- The line feeds before an offset decide the line, and in one line the distance from its start. -/
def Location.Before (place other : Location) : Prop :=
  place.line < other.line ∨ place.line = other.line ∧ place.column < other.column

/-- The offset of a text that has a position. -/
def Location.offsetIn (text : List Char) (place : Location) : Option Nat :=
  (List.range (text.length + 1)).find? fun offset => positionAt place.path text offset == place

/-- The same position in the text of another file. -/
def Location.withPath (place : Location) (path : Option Path) : Location := { place with path }

/-- The same column some lines further down. -/
def Location.down (lines : Nat) (place : Location) : Location :=
  { place with line := place.line + lines }

/-- A way to move positions that makes no difference to how characters move them. -/
def Location.Uniform (move : Location → Location) : Prop :=
  ∀ place char, (move place).advance char = move (place.advance char)

theorem positionAt_zero (path : Option Path) (text : List Char) :
    positionAt path text 0 = { path } := by
  simp [positionAt, lineStart]

/-- One offset further the position has advanced over one character. -/
theorem positionAt_succ (path : Option Path) {text : List Char} {offset : Nat} {char : Char}
    (found : text[offset]? = some char) :
    positionAt path text (offset + 1) = (positionAt path text offset).advance char := by
  -- The last line feed before the offset is this character or the last one before it.
  have taken : text.take (offset + 1) = text.take offset ++ [char] := by
    rw [List.take_add_one, found]
    rfl
  by_cases feed : char = '\n'
  · simp [positionAt, lineStart, Location.advance, taken, found, feed]
  · simp [positionAt, lineStart, Location.advance, taken, found, feed]
    omega

/-- Further on the position has advanced over the characters between. -/
theorem positionAt_append (path : Option Path) (before run rest : List Char) :
    positionAt path (before ++ (run ++ rest)) (before ++ run).length =
      (positionAt path (before ++ (run ++ rest)) before.length).advanceOver run := by
  -- The induction is on the run, with the text before it left open, as the position moves over one character at
  -- a time.
  induction run generalizing before with
  | nil => simp [Location.advanceOver]
  | cons char run ih =>
    -- One character moves from what follows to what stands before.
    have further := ih (before ++ [char])
    have found : (before ++ (char :: run ++ rest))[before.length]? = some char := by simp
    have step := positionAt_succ path found
    simp only [List.append_assoc, List.cons_append, List.nil_append] at further step ⊢
    rw [further, show (before ++ [char]).length = before.length + 1 by simp, step]
    rfl

namespace Location

@[simp] theorem advanceOver_nil (place : Location) : place.advanceOver [] = place := rfl

@[simp] theorem advanceOver_append (place : Location) (run more : List Char) :
    place.advanceOver (run ++ more) = (place.advanceOver run).advanceOver more :=
  List.foldl_append

theorem Before.trans {place between other : Location} (first : place.Before between)
    (second : between.Before other) : place.Before other := by
  -- The order is the lexical one of lines and columns, on which linear arithmetic decides.
  unfold Before at *
  omega

theorem Before.irrefl (place : Location) : ¬ place.Before place := by
  unfold Before
  omega

/-- A character moves a position on. -/
theorem before_advance (place : Location) (char : Char) : place.Before (place.advance char) := by
  -- A line feed moves to the next line, and any other character to the next column.
  unfold Before advance
  split
  · exact Or.inl (Int.lt_succ place.line)
  · exact Or.inr ⟨rfl, Int.lt_succ place.column⟩

/-- A run of characters moves a position on, unless it is empty. -/
theorem before_advanceOver (place : Location) {run : List Char} (filled : run ≠ []) :
    place.Before (place.advanceOver run) := by
  -- The induction is on the run, from its first character on.
  induction run generalizing place with
  | nil => exact absurd rfl filled
  | cons char run ih =>
    -- The first character moves the position on, and the others do not move it back.
    have first := place.before_advance char
    by_cases last : run = []
    · subst last
      exact first
    · exact first.trans (ih (place.advance char) last)

@[simp] theorem withPath_advance (place : Location) (path : Option Path) (char : Char) :
    (place.withPath path).advance char = (place.advance char).withPath path := by
  -- The path plays no part in where a character leads.
  unfold advance withPath
  split <;> rfl

/-- A uniform move makes no difference to how a run of characters moves a position either. -/
theorem Uniform.advanceOver {move : Location → Location} (uniform : Uniform move) (place : Location)
    (run : List Char) : (move place).advanceOver run = move (place.advanceOver run) := by
  -- What commutes with one character commutes with all of them, by induction on the run.
  induction run generalizing place with
  | nil => rfl
  | cons char run ih =>
    rw [Location.advanceOver, List.foldl_cons, uniform]
    exact ih (place.advance char)

theorem uniform_withPath (path : Option Path) : Uniform (withPath · path) :=
  -- The path has no part in how a character moves the position.
  fun place char => withPath_advance place path char

@[simp] theorem withPath_advanceOver (place : Location) (path : Option Path) (run : List Char) :
    (place.withPath path).advanceOver run = (place.advanceOver run).withPath path :=
  (uniform_withPath path).advanceOver place run

theorem uniform_down (lines : Nat) : Uniform (down lines) := by
  -- A line feed moves to the next line, wherever the lines are counted from.
  intro place char
  unfold advance down
  split
  · simp only [Int.add_right_comm]
  · rfl

/-- A line feed behind a run leads to the start of the line below all those in the run. -/
theorem advance_lineFeed (path : Option Path) (run : List Char) :
    (({ path } : Location).advanceOver run).advance '\n' = down (run.count '\n' + 1) { path } := by
  -- The position behind the line feed is found twice: by moving there, and by counting the line feeds before
  -- it.
  have here := positionAt_append path [] (run ++ ['\n']) []
  have found : positionAt path (run ++ ['\n']) (run ++ ['\n']).length =
      down (run.count '\n' + 1) { path } := by
    have whole : (run ++ ['\n']).take (run.length + 1) = run ++ ['\n'] :=
      List.take_of_length_le (by simp)
    simp [positionAt, lineStart, down, whole]
  simp only [List.nil_append, List.append_nil, List.length_nil, positionAt_zero,
    advanceOver_append] at here
  exact here.symm.trans found

end Location

/-- Later offsets of a text have later positions. -/
theorem positionAt_before (path : Option Path) {text : List Char} {offset later : Nat}
    (less : offset < later) (within : later ≤ text.length) :
    (positionAt path text offset).Before (positionAt path text later) := by
  -- The characters between the two offsets move the position on.
  have between : (text.drop offset).take (later - offset) ≠ [] := by
    intro empty
    have := congrArg List.length empty
    simp only [List.length_take, List.length_drop, List.length_nil] at this
    omega
  have moved := positionAt_append path (text.take offset)
    ((text.drop offset).take (later - offset)) ((text.drop offset).drop (later - offset))
  rw [List.take_append_drop, List.take_append_drop] at moved
  have size : (text.take offset).length = offset := by
    rw [List.length_take]
    omega
  have sizeLater :
      (text.take offset ++ (text.drop offset).take (later - offset)).length = later := by
    simp only [List.length_append, List.length_take, List.length_drop]
    omega
  rw [size, sizeLater] at moved
  rw [moved]
  exact Location.before_advanceOver _ between

/-- An offset can be recovered from its position. -/
theorem offsetIn_positionAt (path : Option Path) {text : List Char} {offset : Nat}
    (within : offset ≤ text.length) :
    (positionAt path text offset).offsetIn text = some offset := by
  -- The search takes the first offset with the position, so it is enough that no earlier offset has the same.
  rw [Location.offsetIn, List.find?_range_eq_some]
  refine ⟨by simp [positionAt], by simpa using Nat.lt_succ_of_le within, fun earlier less => ?_⟩
  -- An earlier offset has an earlier position, so it is not taken for this one.
  have before := positionAt_before path less within
  simp only [Bool.not_eq_true', beq_eq_false_iff_ne]
  intro same
  change positionAt path text earlier = positionAt path text offset at same
  rw [same] at before
  exact Location.Before.irrefl _ before

/-- A run leads from the position in front of it to the one behind it. -/
theorem advanceOver_positionAt (path : Option Path) {text before run : List Char}
    (within : before ++ run <+: text) : (positionAt path text before.length).advanceOver run =
      positionAt path text (before ++ run).length := by
  -- A prefix of the text has some rest behind it, over which the move was computed.
  obtain ⟨behind, rfl⟩ := within
  rw [List.append_assoc]
  exact (positionAt_append path before run behind).symm

end Sexpr
