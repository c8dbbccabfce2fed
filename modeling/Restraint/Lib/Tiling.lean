import Mathlib.Data.List.Basic

/-! Pieces of a file that tile a range of it: consecutive, non-empty, and each with the bytes the
file has there. Tilings are put together where one ends and the next begins, and a prefix of the
pieces tiles a prefix of the range. The bytes of all pieces in order are the bytes of the range. -/
namespace Tiling

universe u
variable {β : Type u}

/-- A piece: where it starts in the file, and its bytes. -/
abbrev Piece (β : Type u) := Nat × List β

/-- The pieces cover the file from `a` to `b`, in order, without gap or overlap. -/
def Tiles (file : List β) : Nat → List (Piece β) → Nat → Prop
  | a, [], b => a = b
  | a, (start, bytes) :: rest, b =>
    start = a ∧ bytes ≠ [] ∧ bytes <+: file.drop a ∧ Tiles file (a + bytes.length) rest b

variable {file more bytes : List β} {pieces rest : List (Piece β)} {a b c start : Nat}

@[simp] theorem tiles_nil : Tiles file a [] b ↔ a = b := Iff.rfl

theorem tiles_cons : Tiles file a ((start, bytes) :: rest) b ↔
    start = a ∧ bytes ≠ [] ∧ bytes <+: file.drop a ∧ Tiles file (a + bytes.length) rest b :=
  Iff.rfl

theorem tiles_append : Tiles file a (pieces ++ rest) c ↔
    ∃ b, Tiles file a pieces b ∧ Tiles file b rest c := by
  induction pieces generalizing a with
  | nil => simp
  | cons piece pieces ih =>
    obtain ⟨start, bytes⟩ := piece
    simp only [List.cons_append, tiles_cons, ih]
    constructor
    · rintro ⟨first, some, present, b, before, after⟩
      exact ⟨b, ⟨first, some, present, before⟩, after⟩
    · rintro ⟨b, ⟨first, some, present, before⟩, after⟩
      exact ⟨first, some, present, b, before, after⟩

/-- Appending to the file leaves a tiling one. -/
theorem Tiles.grow (tiles : Tiles file a pieces b) : Tiles (file ++ more) a pieces b := by
  induction pieces generalizing a with
  | nil => exact tiles
  | cons piece pieces ih =>
    obtain ⟨start, bytes⟩ := piece
    obtain ⟨first, some, present, rest⟩ := tiles
    refine ⟨first, some, present.trans ?_, ih rest⟩
    rw [List.drop_append]
    exact List.prefix_append _ _

theorem Tiles.le (tiles : Tiles file a pieces b) : a ≤ b := by
  induction pieces generalizing a with
  | nil => exact Nat.le_of_eq tiles
  | cons piece pieces ih =>
    obtain ⟨start, bytes⟩ := piece
    have rest := ih tiles.2.2.2
    omega

theorem Tiles.le_length (tiles : Tiles file a pieces b) (inside : a ≤ file.length) :
    b ≤ file.length := by
  induction pieces generalizing a with
  | nil => exact tiles ▸ inside
  | cons piece pieces ih =>
    obtain ⟨start, bytes⟩ := piece
    obtain ⟨-, -, present, rest⟩ := tiles
    have fits := present.length_le
    rw [List.length_drop] at fits
    exact ih rest (by omega)

/-- A tiling ends after as many bytes as its pieces have. -/
theorem Tiles.length_eq (tiles : Tiles file a pieces b) :
    b = a + (pieces.map Prod.snd).flatten.length := by
  induction pieces generalizing a with
  | nil => exact tiles.symm
  | cons piece pieces ih =>
    obtain ⟨rfl, -, -, rest⟩ := tiles
    rw [ih rest, List.map_cons, List.flatten_cons, List.length_append, Nat.add_assoc]

/-- Each piece has bytes, those of the file at its place. -/
theorem Tiles.mem (tiles : Tiles file a pieces b) (member : (start, bytes) ∈ pieces) :
    bytes ≠ [] ∧ bytes = (file.drop start).take bytes.length := by
  induction pieces generalizing a with
  | nil => cases member
  | cons piece pieces ih =>
    obtain ⟨rfl, some, present, rest⟩ := tiles
    rcases List.mem_cons.mp member with rfl | later
    · exact ⟨some, List.prefix_iff_eq_take.mp present⟩
    · exact ih rest later

/-- Where a tiling begins. -/
theorem Tiles.head (tiles : Tiles file a pieces b) (some : a ≠ b) :
    ∃ piece ∈ pieces.head?, piece.1 = a := by
  cases pieces with
  | nil => exact absurd tiles some
  | cons piece rest => exact ⟨piece, rfl, tiles.1⟩

/-- Where it ends. -/
theorem Tiles.getLast (tiles : Tiles file a pieces b) :
    ∀ piece ∈ pieces.getLast?, piece.1 + piece.2.length = b := by
  induction pieces generalizing a with
  | nil => simp
  | cons piece rest ih =>
    obtain ⟨rfl, -, -, further⟩ := tiles
    cases rest with
    | nil =>
      rintro _ ⟨⟩
      exact further
    | cons next rest =>
      rw [List.getLast?_cons_cons]
      exact ih further

/-- Each piece begins where the one before it ends. -/
theorem Tiles.isChain (tiles : Tiles file a pieces b) :
    pieces.IsChain fun piece next => next.1 = piece.1 + piece.2.length := by
  induction pieces generalizing a with
  | nil => exact .nil
  | cons piece rest ih =>
    obtain ⟨rfl, -, -, further⟩ := tiles
    cases rest with
    | nil => exact .singleton _
    | cons next rest => exact .cons_cons further.1 (ih further)

/-- The bytes of a tiling are the bytes of its range. -/
theorem Tiles.bytes_eq (tiles : Tiles file a pieces b) :
    (pieces.map Prod.snd).flatten = (file.drop a).take (b - a) := by
  induction pieces generalizing a with
  | nil =>
    have same : a = b := tiles
    simp [same]
  | cons piece pieces ih =>
    obtain ⟨start, bytes⟩ := piece
    obtain ⟨-, -, ⟨after, shape⟩, rest⟩ := tiles
    have further := rest.le
    have dropped : file.drop (a + bytes.length) = after := by
      rw [← List.drop_drop, ← shape, List.drop_left]
    have left : b - a = bytes.length + (b - (a + bytes.length)) := by omega
    rw [List.map_cons, List.flatten_cons, ih rest, dropped, ← shape, left,
      List.take_append, Nat.add_sub_cancel_left, List.take_of_length_le (Nat.le_add_right _ _)]

end Tiling
