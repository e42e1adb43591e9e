/-
**Scripts of edits.**

A script says of each piece of a text whether it is kept or replaced, and by what. The edits that
replace its pieces, applied in any order, give the text with all of them replaced, provided that no two
of them have the same start.

* `Text.Script`: a text as pieces that are kept and pieces that are replaced.
* `Text.Script.edits`: the replacements with their byte ranges.
* `Text.applyEdits_of_perm`: applying the edits of a script.
-/

import Mathlib.Data.List.Pairwise
import Mathlib.Tactic
import Relabel.Text.Edit

namespace Relabel.Text

/-! ### Byte offsets -/

@[simp]
theorem byteLength_nil : byteLength [] = 0 := rfl

@[simp]
theorem byteLength_cons (c : Char) (text : Text) :
    byteLength (c :: text) = c.utf8Size + byteLength text :=
  rfl

@[simp]
theorem byteLength_append (first second : Text) :
    byteLength (first ++ second) = byteLength first + byteLength second := by
  induction first with
  | nil => simp
  | cons c first ih => simp only [List.cons_append, byteLength_cons, ih, Nat.add_assoc]

/-- Text that is not empty takes at least one byte. -/
theorem byteLength_pos {text : Text} (nonempty : text ≠ []) : 0 < byteLength text := by
  obtain ⟨c, text, rfl⟩ := List.exists_cons_of_ne_nil nonempty
  have positive := c.utf8Size_pos
  simp only [byteLength_cons]
  omega

theorem cutAtFrom?_append (passed first second : Text) :
    cutAtFrom? passed (byteLength first) (first ++ second) = some (passed.reverse ++ first, second) := by
  induction first generalizing passed with
  | nil => simp [cutAtFrom?]
  | cons c first ih =>
    have positive := c.utf8Size_pos
    obtain ⟨more, size⟩ : ∃ more, byteLength (c :: first) = more + 1 :=
      Nat.exists_eq_add_one.mpr (byteLength_pos (by simp))
    rw [size, List.cons_append, cutAtFrom?, ← size, byteLength_cons, if_pos (by omega),
      Nat.add_sub_cancel_left, ih]
    simp

/-- A text is cut where its second part begins. -/
theorem cutAt?_append (first second : Text) :
    cutAt? (byteLength first) (first ++ second) = some (first, second) :=
  cutAtFrom?_append [] first second

/-- The part between two others. -/
theorem slice?_append (before part behind : Text) :
    slice? (before ++ (part ++ behind)) (byteLength before) (byteLength before + byteLength part) = some part := by
  unfold slice?
  rw [if_neg (by omega), cutAt?_append, Nat.add_sub_cancel_left]
  simp only [Option.bind_eq_bind, Option.bind_some, cutAt?_append]

/-- A text is split at a byte offset in one way only. -/
theorem append_inj_of_byteLength {x y x' y' : Text} (same : x ++ y = x' ++ y')
    (size : byteLength x = byteLength x') : x = x' ∧ y = y' := by
  have first := cutAt?_append x y
  rw [same, size, cutAt?_append] at first
  obtain ⟨rfl, rfl⟩ := Prod.mk.inj (Option.some.inj first)
  exact ⟨rfl, rfl⟩

/-! ### Scripts -/

/-- A piece of a text, with the text that takes its place if it is replaced. -/
structure Piece where
  old : Text
  swap : Option Text

/-- What a piece becomes. -/
def Piece.new (piece : Piece) : Text :=
  piece.swap.getD piece.old

/-- A text in pieces. -/
abbrev Script := List Piece

namespace Script

/-- The text before the edits. -/
def old (script : Script) : Text :=
  script.flatMap Piece.old

/-- The text after the edits. -/
def new (script : Script) : Text :=
  script.flatMap Piece.new

/-- The edits of a script for a text that begins at byte `offset`. -/
def editsFrom (offset : Nat) : Script → List Edit
  | [] => []
  | piece :: script =>
    let stop := offset + byteLength piece.old
    (piece.swap.map fun new => ⟨offset, stop, new⟩).toList ++ editsFrom stop script

/-- The edits of a script. -/
def edits (script : Script) : List Edit :=
  editsFrom 0 script

@[simp]
theorem old_cons (piece : Piece) (script : Script) : old (piece :: script) = piece.old ++ old script :=
  rfl

@[simp]
theorem new_cons (piece : Piece) (script : Script) : new (piece :: script) = piece.new ++ new script :=
  rfl

@[simp]
theorem old_append (first second : Script) : old (first ++ second) = old first ++ old second :=
  List.flatMap_append

@[simp]
theorem new_append (first second : Script) : new (first ++ second) = new first ++ new second :=
  List.flatMap_append

theorem editsFrom_append (offset : Nat) (first second : Script) :
    editsFrom offset (first ++ second)
      = editsFrom offset first ++ editsFrom (offset + byteLength (old first)) second := by
  induction first generalizing offset with
  | nil => simp [editsFrom, old]
  | cons piece first ih => simp [editsFrom, ih, Nat.add_assoc]

/-- The edit of a single piece. -/
theorem mem_editsFrom_single {offset : Nat} {old : Text} {swap : Option Text} {edit : Edit} :
    edit ∈ editsFrom offset [⟨old, swap⟩]
      ↔ swap = some edit.text ∧ offset = edit.start ∧ offset + byteLength old = edit.stop := by
  rcases edit with ⟨start, stop, text⟩
  cases swap with
  | none => simp [editsFrom]
  | some new =>
    simp only [editsFrom, Option.map_some, Option.toList_some, List.append_nil, List.mem_singleton,
      Edit.mk.injEq, Option.some.injEq]
    constructor
    · rintro ⟨rfl, rfl, rfl⟩
      exact ⟨rfl, rfl, rfl⟩
    · rintro ⟨rfl, rfl, rfl⟩
      exact ⟨rfl, rfl, rfl⟩

/-- The edits of a script stay within its text. -/
theorem bounds_of_mem {script : Script} {offset : Nat} {edit : Edit}
    (member : edit ∈ editsFrom offset script) :
    offset ≤ edit.start ∧ edit.start ≤ edit.stop
      ∧ edit.stop ≤ offset + byteLength (old script) := by
  induction script generalizing offset with
  | nil => simp [editsFrom] at member
  | cons piece script ih =>
    rcases List.mem_append.mp member with here | later
    · obtain ⟨new, _, rfl⟩ : ∃ new, piece.swap = some new ∧ _ = edit := by simpa using here
      simp only [old_cons, byteLength_append]
      omega
    · have bounds := ih later
      simp only [old_cons, byteLength_append]
      omega

end Script

/-! ### Applying edits -/

/-- One edit ends before the other begins. -/
def Edit.Before (first second : Edit) : Prop :=
  first.stop ≤ second.start ∧ first.start < second.start

/-- **Applying the edits of a script, in order.** `kept` is the text since the last edit. -/
theorem applyFrom_of_script (whole kept : Text) (size cursor : Nat) (script : Script)
    (enough : cursor + byteLength kept + byteLength script.old ≤ size) :
    applyFrom whole size cursor (kept ++ script.old)
        (script.editsFrom (cursor + byteLength kept)) = some (kept ++ script.new) := by
  induction script generalizing kept cursor with
  | nil => rfl
  | cons piece script ih =>
    rcases piece with ⟨old, _ | new⟩
    · have later := ih (kept ++ old) cursor (by simpa [Nat.add_assoc] using enough)
      simpa [Script.editsFrom, Piece.new, Nat.add_assoc] using later
    · simp only [Script.old_cons, byteLength_append] at enough
      have later := ih [] (cursor + byteLength kept + byteLength old) (by simpa [Nat.add_assoc] using enough)
      simp only [List.nil_append, byteLength_nil, Nat.add_zero] at later
      simp only [Script.editsFrom, Option.map_some, Option.toList_some, List.singleton_append,
        applyFrom, Script.old_cons, Script.new_cons, Piece.new, Option.getD_some]
      have inside : ¬ ((cursor + byteLength kept < cursor : Bool)
          || (size < cursor + byteLength kept + byteLength old : Bool)) = true := by
        simp only [Bool.or_eq_true, decide_eq_true_eq, not_or, not_lt]
        omega
      rw [if_neg inside, Nat.add_sub_cancel_left, cutAt?_append]
      simp only [Option.bind_eq_bind, Option.bind_some, Nat.le_add_right, if_true,
        Nat.add_sub_cancel_left, cutAt?_append, later]
      simp

/-- Items with different keys are in order in one way only. -/
theorem eq_of_increasing {α : Type} (key : α → Nat) {sorted ordered : List α}
    (perm : sorted.Perm ordered) (inOrder : sorted.Pairwise fun a b => key a ≤ key b)
    (increasing : ordered.Pairwise fun a b => key a < key b) : sorted = ordered := by
  have different : (ordered.map key).Nodup := List.pairwise_map.mpr (increasing.imp Nat.ne_of_lt)
  refine List.Perm.eq_of_pairwise (fun a b inSorted inOrdered le ge => ?_) inOrder
    (increasing.imp Nat.le_of_lt) perm
  exact List.inj_on_of_nodup_map different (perm.mem_iff.mp inSorted) inOrdered (Nat.le_antisymm le ge)

/-- Sorted edits are in order of their starts. -/
theorem inOrder_mergeSort (edits : List Edit) :
    (edits.mergeSort fun a b => a.start ≤ b.start).Pairwise fun a b => a.start ≤ b.start := by
  refine (List.pairwise_mergeSort (fun a b c le le' => ?_) (fun a b => ?_) edits).imp fun le => ?_
  · simp only [decide_eq_true_eq] at le le' ⊢
    exact Nat.le_trans le le'
  · simpa using Nat.le_total a.start b.start
  · simpa using le

theorem mergeSort_eq_of_perm {edits ordered : List Edit} (perm : edits.Perm ordered)
    (before : ordered.Pairwise Edit.Before) :
    edits.mergeSort (fun a b => a.start ≤ b.start) = ordered :=
  eq_of_increasing Edit.start ((List.mergeSort_perm edits _).trans perm) (inOrder_mergeSort edits)
    (before.imp fun less => less.2)

/-- **The edits of a script give the text with all its pieces replaced**, whatever their order. -/
theorem applyEdits_of_perm {script : Script} {edits : List Edit} (perm : edits.Perm script.edits)
    (before : script.edits.Pairwise Edit.Before) :
    applyEdits script.old edits = some script.new := by
  rw [applyEdits, mergeSort_eq_of_perm perm before]
  simpa [Script.edits] using applyFrom_of_script script.old [] (byteLength script.old) 0 script (by simp)

end Relabel.Text
