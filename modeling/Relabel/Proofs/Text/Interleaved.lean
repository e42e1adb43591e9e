/-
**Edits that are taken as they fit.**

A list of edits may hold edits that touch, overlap, repeat one another, replace nothing or end beyond the text. They
are gone through in order of their starts, where edits with the same start keep their order. An edit is taken if it
begins at or behind the end of the last one taken and ends in the text. Only the edits that end in the text have to
respect its characters, since no other one is taken.

* `Text.cutAt?_eq_some_iff`, `Text.IsBoundary`: the byte offsets at which a text can be cut.
* `Text.StablyOrdered`: the order in which edits are gone through, which is the only one of its kind.
* `Text.exists_script_accepted`: the edits that are taken are those of a script of the text.
* `Text.applyEdits_interleaved`: the text with these edits applied, and no other change.
-/

import Relabel.Proofs.Text.Accepted
import Relabel.Proofs.Text.Nested

namespace Relabel.Text

/-! ### Boundaries -/

theorem cutAtFrom?_eq_some {passed text before behind : Text} {offset : Nat}
    (cut : cutAtFrom? passed offset text = some (before, behind)) :
    ∃ between, before = passed.reverse ++ between ∧ text = between ++ behind ∧ byteLength between = offset := by
  induction text generalizing passed offset with
  | nil =>
    cases offset with
    | zero =>
      obtain ⟨rfl, rfl⟩ := Prod.mk.inj (Option.some.inj cut)
      exact ⟨[], (List.append_nil _).symm, rfl, rfl⟩
    | succ offset => simp [cutAtFrom?] at cut
  | cons c rest ih =>
    cases offset with
    | zero =>
      obtain ⟨rfl, rfl⟩ := Prod.mk.inj (Option.some.inj cut)
      exact ⟨[], (List.append_nil _).symm, rfl, rfl⟩
    | succ offset =>
      unfold cutAtFrom? at cut
      split at cut
      next fits =>
        obtain ⟨between, rfl, rfl, size⟩ := ih cut
        refine ⟨c :: between, by simp, rfl, ?_⟩
        rw [byteLength_cons, size]
        omega
      next => simp at cut

/-- **A text is cut** at a byte offset if its first part has that many bytes. -/
theorem cutAt?_eq_some_iff {text before behind : Text} {offset : Nat} :
    cutAt? offset text = some (before, behind) ↔ text = before ++ behind ∧ byteLength before = offset := by
  constructor
  · intro cut
    obtain ⟨between, rfl, whole, size⟩ := cutAtFrom?_eq_some cut
    exact ⟨whole, size⟩
  · rintro ⟨rfl, rfl⟩
    exact cutAt?_append before behind

/-- A byte offset at which a character begins or the text ends. -/
def IsBoundary (text : Text) (offset : Nat) : Prop :=
  ∃ before behind, text = before ++ behind ∧ byteLength before = offset

theorem isBoundary_iff {text : Text} {offset : Nat} : IsBoundary text offset ↔ (cutAt? offset text).isSome = true := by
  constructor
  · rintro ⟨before, behind, rfl, rfl⟩
    rw [cutAt?_append]
    rfl
  · intro cut
    obtain ⟨⟨before, behind⟩, parts⟩ := Option.isSome_iff_exists.mp cut
    exact ⟨before, behind, cutAt?_eq_some_iff.mp parts⟩

instance (text : Text) (offset : Nat) : Decidable (IsBoundary text offset) :=
  decidable_of_iff _ isBoundary_iff.symm

/-- The range of an edit runs forward, and if it ends in the text, then from one boundary to another. -/
def Edit.Respects (edit : Edit) (text : Text) : Prop :=
  edit.start ≤ edit.stop
    ∧ (edit.stop ≤ byteLength text → IsBoundary text edit.start ∧ IsBoundary text edit.stop)

instance (edit : Edit) (text : Text) : Decidable (edit.Respects text) :=
  inferInstanceAs (Decidable (_ ∧ (_ → _ ∧ _)))

/-! ### The order of edits -/

/-- A list of edits in order of their starts, in which edits with the same start keep their order. -/
structure StablyOrdered (edits ordered : List Edit) : Prop where
  rising : ordered.Pairwise fun a b => a.start ≤ b.start
  stable : ∀ start, ordered.filter (·.start = start) = edits.filter (·.start = start)

theorem stablyOrdered_mergeSort (edits : List Edit) :
    StablyOrdered edits (edits.mergeSort fun a b => a.start ≤ b.start) := by
  refine ⟨inOrder_mergeSort edits, fun start => ?_⟩
  have perm := (List.mergeSort_perm edits fun a b => a.start ≤ b.start).filter (·.start = start)
  have level : (edits.filter (·.start = start)).Pairwise fun a b => decide (a.start ≤ b.start) = true := by
    refine List.pairwise_iff_forall_sublist.mpr fun {a b} sublist => ?_
    have both : ∀ edit ∈ [a, b], edit.start = start := fun edit member => by
      simpa using (List.mem_filter.mp (sublist.subset member)).2
    have first := both a (by simp)
    have second := both b (by simp)
    simp [first, second]
  -- Sorting keeps the edits with one start as a sublist, and there are no more of them afterwards.
  have kept : (edits.filter (·.start = start)).Sublist (edits.mergeSort fun a b => a.start ≤ b.start) := by
    refine List.sublist_mergeSort (fun a b c le le' => ?_) (fun a b => ?_) level List.filter_sublist
    · simp only [decide_eq_true_eq] at le le' ⊢
      exact le.trans le'
    · simpa using Nat.le_total a.start b.start
  have again := kept.filter (·.start = start)
  rw [List.filter_filter] at again
  simp only [Bool.and_self] at again
  exact (again.eq_of_length perm.length_eq.symm).symm

/-- Lists that have the same edits at each start have the same edits. -/
theorem mem_of_filter_eq {first second : List Edit} {edit : Edit}
    (same : ∀ start, first.filter (·.start = start) = second.filter (·.start = start)) (member : edit ∈ first) :
    edit ∈ second := by
  have level : edit ∈ first.filter (·.start = edit.start) := List.mem_filter.mpr ⟨member, decide_eq_true rfl⟩
  rw [same] at level
  exact List.mem_of_mem_filter level

/-- The first edit in order has the least start. -/
theorem start_le_of_mem {edit other : Edit} {edits : List Edit}
    (rising : (edit :: edits).Pairwise fun a b => a.start ≤ b.start) (member : other ∈ edit :: edits) :
    edit.start ≤ other.start := by
  rcases List.mem_cons.mp member with rfl | behind
  · exact le_rfl
  · exact (List.pairwise_cons.mp rising).1 other behind

/-- **Edits in order are told by those at each start.** The first ones have the same start, hence they are the first
ones there, and the induction goes on with the others. -/
theorem eq_of_filter_eq {first second : List Edit}
    (same : ∀ start, first.filter (·.start = start) = second.filter (·.start = start))
    (risingFirst : first.Pairwise fun a b => a.start ≤ b.start)
    (risingSecond : second.Pairwise fun a b => a.start ≤ b.start) : first = second := by
  induction first generalizing second with
  | nil =>
    cases second with
    | nil => rfl
    | cons b second => exact absurd (mem_of_filter_eq (fun k => (same k).symm) List.mem_cons_self) List.not_mem_nil
  | cons a first ih =>
    cases second with
    | nil => exact absurd (mem_of_filter_eq same List.mem_cons_self) List.not_mem_nil
    | cons b second =>
      have level : a.start = b.start := Nat.le_antisymm
        (start_le_of_mem risingFirst (mem_of_filter_eq (fun k => (same k).symm) List.mem_cons_self))
        (start_le_of_mem risingSecond (mem_of_filter_eq same List.mem_cons_self))
      have heads := same a.start
      simp only [List.filter_cons, level, decide_true, if_true] at heads
      obtain ⟨rfl, -⟩ := List.cons.inj heads
      refine congrArg (a :: ·) (ih (fun start => ?_) (List.pairwise_cons.mp risingFirst).2
        (List.pairwise_cons.mp risingSecond).2)
      have tails := same start
      by_cases own : a.start = start
      · simpa only [List.filter_cons, own, decide_true, if_true, List.cons.injEq, true_and] using tails
      · simpa only [List.filter_cons, own, decide_false, Bool.false_eq_true, if_false] using tails

/-- **There is one such order.** -/
theorem StablyOrdered.unique {edits first second : List Edit} (orderedFirst : StablyOrdered edits first)
    (orderedSecond : StablyOrdered edits second) : first = second :=
  eq_of_filter_eq (fun start => (orderedFirst.stable start).trans (orderedSecond.stable start).symm)
    orderedFirst.rising orderedSecond.rising

/-! ### Taking edits -/

/-- **The edits that are taken are those of a script.** The induction is on the edits that are still to come; `front`
is the text up to the end of the last one taken. -/
theorem exists_script_accepted {whole front text : Text} {edits : List Edit}
    (respects : ∀ edit ∈ edits, edit.Respects whole) (parts : whole = front ++ text) :
    ∃ script : Script, script.old = text
      ∧ script.editsFrom (byteLength front) = acceptedFrom (byteLength whole) (byteLength front) edits := by
  induction edits generalizing front text with
  | nil => exact ⟨[⟨text, none⟩], by simp [Script.old], by simp [Script.editsFrom, acceptedFrom]⟩
  | cons edit edits ih =>
    obtain ⟨⟨forward, boundaries⟩, later⟩ := List.forall_mem_cons.mp respects
    by_cases skipped : edit.start < byteLength front ∨ byteLength whole < edit.stop
    · rw [acceptedFrom_skip skipped]
      exact ih later parts
    · obtain ⟨begins, ends⟩ := not_or.mp skipped
      obtain ⟨⟨before, behind, cut, start⟩, before', behind', cut', stop⟩ := boundaries (Nat.not_lt.mp ends)
      obtain ⟨gap, rfl, rfl⟩ : ∃ gap, before = front ++ gap ∧ text = gap ++ behind :=
        exists_between_of_byteLength (parts.symm.trans cut) (start ▸ Nat.not_lt.mp begins)
      obtain ⟨part, rfl, rfl⟩ : ∃ part, before' = front ++ gap ++ part ∧ behind = part ++ behind' :=
        exists_between_of_byteLength (cut.symm.trans cut') (start.trans_le (forward.trans_eq stop.symm))
      obtain ⟨script, old, scripted⟩ := ih later cut'
      refine ⟨⟨gap, none⟩ :: ⟨part, some edit.text⟩ :: script, by simp [old], ?_⟩
      rw [acceptedFrom_take (Nat.not_lt.mp begins) (Nat.not_lt.mp ends), ← stop, ← scripted]
      simp only [byteLength_append] at start stop ⊢
      simp only [Script.editsFrom, Option.map_none, Option.toList_none, List.nil_append, Option.map_some,
        Option.toList_some, List.singleton_append, stop]
      rw [start]

/-- Edits that come one before the other and end in the text are all taken. -/
theorem acceptedFrom_of_before {size cursor : Nat} {edits : List Edit} (inOrder : edits.Pairwise Edit.Before)
    (begin : ∀ edit ∈ edits, cursor ≤ edit.start) (within : ∀ edit ∈ edits, edit.stop ≤ size) :
    acceptedFrom size cursor edits = edits := by
  induction edits generalizing cursor with
  | nil => rfl
  | cons edit edits ih =>
    obtain ⟨first, rest⟩ := List.pairwise_cons.mp inOrder
    obtain ⟨here, -⟩ := List.forall_mem_cons.mp begin
    obtain ⟨ends, withinRest⟩ := List.forall_mem_cons.mp within
    rw [acceptedFrom_take here ends, ih rest (fun other member => (first other member).1) withinRest]

/-- Edits of which each replaces something in the text, and no two replace the same. -/
structure Disjoint (text : Text) (edits : List Edit) : Prop where
  solid : ∀ edit ∈ edits, edit.start < edit.stop ∧ edit.stop ≤ byteLength text
  apart : edits.Pairwise fun a b => a.stop ≤ b.start ∨ b.stop ≤ a.start

/-- In order of their starts, disjoint edits come one before the other. -/
theorem Disjoint.before {text : Text} {edits : List Edit} (disjoint : Disjoint text edits) :
    (edits.mergeSort fun a b => a.start ≤ b.start).Pairwise Edit.Before := by
  have perm := List.mergeSort_perm edits fun a b => a.start ≤ b.start
  have apart := perm.symm.pairwise disjoint.apart fun apart => apart.symm
  refine ((inOrder_mergeSort edits).and apart).imp_of_mem fun {a b} inFirst inSecond both => ?_
  have solid := (disjoint.solid a (perm.mem_iff.mp inFirst)).1
  have solid' := (disjoint.solid b (perm.mem_iff.mp inSecond)).1
  obtain ⟨order, ends | ends⟩ := both
  · exact ⟨ends, solid.trans_le ends⟩
  · omega

/-! ### The result -/

/-- What applying edits to a text comes to. -/
structure Interleaved (text : Text) (edits : List Edit) : Prop where
  /-- There is one order in which to go through the edits, -/
  order : ∃! ordered, StablyOrdered edits ordered
  /-- and the edits that are taken in it are applied. The result is the text in pieces, in order and each of them
  once, of which exactly those with an edit that is taken are replaced. -/
  applied : ∀ ordered, StablyOrdered edits ordered → ∃ script : Script, script.old = text
    ∧ script.edits = acceptedFrom (byteLength text) 0 ordered ∧ applyEdits text edits = some script.new
  /-- Disjoint edits are all taken, -/
  all : Disjoint text edits → (accepted text edits).Perm edits
  /-- and their order does not matter. -/
  anyOrder : Disjoint text edits → ∀ other : List Edit, other.Perm edits → applyEdits text other = applyEdits text edits

/-- **Edits are taken as they fit**: applying them never fails, and changes nothing but the ranges of those that are
taken. -/
theorem applyEdits_interleaved {text : Text} {edits : List Edit} (respects : ∀ edit ∈ edits, edit.Respects text) :
    Interleaved text edits := by
  have sorted := stablyOrdered_mergeSort edits
  have perm := List.mergeSort_perm edits fun a b => a.start ≤ b.start
  constructor
  · exact ⟨_, sorted, fun other ordered => ordered.unique sorted⟩
  · intro ordered stably
    obtain rfl := stably.unique sorted
    have respected := fun edit member => respects edit (perm.mem_iff.mp member)
    obtain ⟨script, old, scripted⟩ := exists_script_accepted respected (List.nil_append text).symm
    have applied := applyFrom_of_script script.old [] (byteLength script.old) 0 script (by simp)
    refine ⟨script, old, scripted, ?_⟩
    rw [applyEdits, ← applyFrom_acceptedFrom]
    rw [old] at applied
    exact (congrArg (applyFrom text (byteLength text) 0 text) scripted).symm.trans applied
  · intro disjoint
    have taken : accepted text edits = edits.mergeSort fun a b => a.start ≤ b.start :=
      acceptedFrom_of_before disjoint.before (fun _ _ => Nat.zero_le _)
        fun edit member => (disjoint.solid edit (perm.mem_iff.mp member)).2
    exact taken ▸ perm
  · intro disjoint other same
    have sameOrder := mergeSort_eq_of_perm (same.trans perm.symm) disjoint.before
    rw [applyEdits, applyEdits, sameOrder]

/-- It is so for edits that touch, replace nothing, overlap, repeat one another and end beyond the text. -/
theorem applyEdits_interleaved_mixed :
    let edits : List Edit := [⟨4, 5, "w"⟩, ⟨1, 3, "x"⟩, ⟨1, 1, "y"⟩, ⟨3, 3, "z"⟩, ⟨2, 9, "v"⟩, ⟨1, 3, "u"⟩]
    (∀ edit ∈ edits, edit.Respects "añbc") ∧ Interleaved "añbc" edits
      ∧ applyEdits "añbc" edits = some "axzbw".toList := by
  have respects : ∀ edit ∈ ([⟨4, 5, "w"⟩, ⟨1, 3, "x"⟩, ⟨1, 1, "y"⟩, ⟨3, 3, "z"⟩, ⟨2, 9, "v"⟩, ⟨1, 3, "u"⟩] : List Edit),
      edit.Respects "añbc" := by decide
  exact ⟨respects, applyEdits_interleaved respects, by cbv⟩

end Relabel.Text
