/-
**References beside references.**

A scan for attributes goes on behind the closing quote of a value. An attribute whose name stands right behind
that quote has no lead left and is passed over. This is the only way in which a reference is lost, apart from one
that is written within the value of another.

* `Finding.Hides`, `Finding.Adjoins`: what a reported value may do to another attribute.
* `WrittenAttribute.OccursIn.eq_of_front`: one attribute at most has its value at a place.
* `WrittenAttribute.OccursIn.hidden_or_adjoined`: an attribute that begins within another one is hindered by it.
* `AttributeRule.mem_findings_iff_unhindered`: an attribute is reported unless a reported value hinders it.
* `reference_reported_iff`: the attributes that refer to elements.
-/

import Relabel.Proofs.Scan.AttributeGrammar

namespace Relabel

open Text (append_inj_of_byteLength byteLength byteLength_append byteLength_cons byteLength_nil byteLength_pos)

namespace WrittenAttribute

variable {attr attr' : WrittenAttribute} {names : List Text} {begins html : Text}

/-- The byte offset of the name. -/
def nameStart (attr : WrittenAttribute) : Nat :=
  byteLength (attr.before ++ attr.lead)

/-- The byte offset just behind the name. -/
def nameStop (attr : WrittenAttribute) : Nat :=
  byteLength (attr.before ++ attr.lead ++ attr.name)

/-! ### One attribute for a value -/

/-- What stands before the name decides where the attribute begins. -/
theorem OccursIn.before_eq (occurs : attr.OccursIn names begins html) (occurs' : attr'.OccursIn names begins html)
    (same : attr.before ++ attr.lead = attr'.before ++ attr'.lead) : attr.before = attr'.before := by
  rcases occurs.led with ⟨noLead, empty⟩ | ⟨c, isSingle, _⟩ <;>
    rcases occurs'.led with ⟨noLead', empty'⟩ | ⟨c', isSingle', _⟩
  · rw [empty, empty']
  · simp [noLead, empty, isSingle'] at same
  · simp [noLead', empty', isSingle] at same
  · rw [isSingle, isSingle'] at same
    exact (List.append_inj' same rfl).1

/-- **One attribute at most has its value at a place**, if no name is the end of another. -/
theorem OccursIn.eq_of_front (occurs : attr.OccursIn names begins html)
    (areNames : ∀ name ∈ names, IsAttributeName name)
    (apart : ∀ name ∈ names, ∀ name' ∈ names, name <:+ name' → name = name')
    (occurs' : attr'.OccursIn names begins html) (same : attr.front = attr'.front) : attr = attr' := by
  obtain ⟨name, inNames, spells⟩ := occurs.spelt
  obtain ⟨name', inNames', spells'⟩ := occurs'.spelt
  obtain ⟨nonempty, plain, _⟩ := areNames name inNames
  obtain ⟨nonempty', plain', _⟩ := areNames name' inNames'
  have parts : attr.before ++ attr.lead ++ attr.name ++ attr.sign ++ [attr.quote]
      = attr'.before ++ attr'.lead ++ attr'.name ++ attr'.sign ++ [attr'.quote] := by
    simpa [front, opening] using same
  obtain ⟨texts, quote⟩ := List.append_singleton_inj.mp parts
  have ends : name = name' := by
    rcases names_suffix (x := attr.front) (c := attr.quote) plain plain' nonempty nonempty' spells spells'
      occurs.assigns occurs'.assigns ⟨attr.before ++ attr.lead, by simp [front, opening]⟩
      ⟨attr'.before ++ attr'.lead, by rw [same, quote]; simp [front, opening]⟩ with first | second
    · exact apart name inNames name' inNames' first
    · exact (apart name' inNames' name inNames second).symm
  have sizes : attr.name.length = attr'.name.length := by
    rw [← spells.length_eq, ← spells'.length_eq, ends]
  have named := written_inj plain plain' nonempty nonempty' spells spells' occurs.assigns occurs'.assigns texts
  exact occurs.eq_of_before areNames occurs' (occurs.before_eq occurs' (List.append_inj' named sizes).1)

end WrittenAttribute

/-! ### What hinders an attribute -/

/-- The name of the attribute lies within the value. -/
def Finding.Hides (finding : Finding) (attr : WrittenAttribute) : Prop :=
  finding.start ≤ attr.nameStart ∧ attr.nameStop ≤ finding.stop

/-- The name of the attribute stands right behind the closing quote of the value. -/
def Finding.Adjoins (finding : Finding) (attr : WrittenAttribute) : Prop :=
  attr.nameStart = finding.stop + 1

instance (finding : Finding) (attr : WrittenAttribute) : Decidable (finding.Hides attr) :=
  inferInstanceAs (Decidable (_ ∧ _))

instance (finding : Finding) (attr : WrittenAttribute) : Decidable (finding.Adjoins attr) :=
  inferInstanceAs (Decidable (_ = _))

namespace WrittenAttribute

variable {attr earlier : WrittenAttribute} {names : List Text} {begins html : Text} {reportsName : Bool}

/-- A quote takes one byte. -/
theorem OccursIn.stop_eq (occurs : attr.OccursIn names begins html) (reportsName : Bool) :
    attr.stop = (attr.finding reportsName).stop + 1 := by
  have size : attr.quote.utf8Size = 1 := by
    rcases eq_of_isQuote occurs.quoted with same | same <;> rw [same] <;> rfl
  simp [stop, through, finding, size, Nat.add_assoc]

/-- An attribute that does not stand at the front of the text has a lead. -/
theorem OccursIn.exists_lead (occurs : attr.OccursIn names begins html) (notFront : attr.before ≠ []) :
    ∃ c, attr.lead = [c] ∧ isLead c = true :=
  occurs.led.resolve_left fun ⟨_, empty⟩ => notFront empty

theorem OccursIn.length_lead_le (occurs : attr.OccursIn names begins html) : attr.lead.length ≤ 1 := by
  rcases occurs.led with ⟨noLead, _⟩ | ⟨c, isSingle, _⟩
  · simp [noLead]
  · simp [isSingle]

/-- What stands from the lead on. -/
theorem OccursIn.from_lead (occurs : attr.OccursIn names begins html) {c : Char} (isSingle : attr.lead = [c]) :
    ∃ text, html = attr.before ++ c :: (attr.name ++ text) := by
  refine ⟨attr.sign ++ attr.quote :: (attr.value ++ attr.quote :: attr.behind), ?_⟩
  conv_lhs => rw [occurs.ahead, isSingle]
  simp

/-- **The name of an attribute that begins within another one stands behind the opening quote** of the other. The
lead is no letter of the other name, and the first letter of the name is neither white space nor an equals sign nor
a quote. -/
theorem OccursIn.name_behind_front (occurs : attr.OccursIn names begins html)
    (areNames : ∀ name ∈ names, IsAttributeName name) (occurs' : earlier.OccursIn names begins html)
    (first : earlier.before.length < attr.before.length) :
    ∃ r, attr.before ++ attr.lead = earlier.front ++ r := by
  obtain ⟨c, isSingle, isLead⟩ := occurs.exists_lead (List.ne_nil_of_length_pos (Nat.zero_lt_of_lt first))
  obtain ⟨text, ahead⟩ := occurs.from_lead isSingle
  obtain ⟨d, letters, spelt⟩ := occurs.exists_name_cons areNames
  obtain ⟨solid, other, unquoted, _⟩ := occurs.of_mem_name areNames (c := d) (by simp [spelt])
  have notInName : c ∉ earlier.name := fun member =>
    Bool.false_ne_true ((occurs'.of_mem_name areNames member).2.2.2.symm.trans isLead)
  have notInSign : d ∉ earlier.sign ++ [earlier.quote] := by
    intro member
    rcases List.mem_append.mp member with inSign | isQuote
    · exact occurs'.assigns.not_mem solid other inSign
    · rw [List.mem_singleton.mp isQuote] at unquoted
      exact Bool.false_ne_true (unquoted.symm.trans occurs'.quoted)
  have same : (attr.before ++ [c]) ++ d :: (letters ++ text)
      = (earlier.before ++ earlier.lead ++ earlier.name)
        ++ ((earlier.sign ++ [earlier.quote]) ++ (earlier.value ++ earlier.quote :: earlier.behind)) := by
    have parts := ahead.symm.trans occurs'.ahead
    rw [spelt] at parts
    simpa using parts
  rcases exists_apart same notInSign with ⟨r, inName⟩ | ⟨r, behind⟩
  · -- The lead would be a letter of the other name, or the lead of the other.
    have size := occurs'.length_lead_le
    have split : attr.before ++ c :: (d :: r) = (earlier.before ++ earlier.lead) ++ (earlier.name ++ []) := by
      simpa using inName.symm
    rcases exists_apart split notInName with ⟨r', early⟩ | ⟨r', late⟩
    · have sizes := congrArg List.length early
      simp only [List.length_append, List.length_cons] at sizes
      omega
    · have sizes := congrArg List.length inName
      have sizes' := congrArg List.length late
      simp only [List.length_append, List.length_cons, List.length_nil] at sizes sizes'
      omega
  · exact ⟨r, by simpa [isSingle, front, opening] using behind⟩

/-- **An attribute that begins within another one** is hidden by the value of it, or adjoins it: its name holds no
quote, so that it ends before the closing quote or begins behind it. -/
theorem OccursIn.hidden_or_adjoined (occurs : attr.OccursIn names begins html)
    (areNames : ∀ name ∈ names, IsAttributeName name) (occurs' : earlier.OccursIn names begins html)
    (first : earlier.before.length < attr.before.length) (second : attr.before.length < earlier.through.length) :
    (earlier.finding reportsName).Hides attr ∨ (earlier.finding reportsName).Adjoins attr := by
  obtain ⟨c, isSingle, _⟩ := occurs.exists_lead (List.ne_nil_of_length_pos (Nat.zero_lt_of_lt first))
  obtain ⟨text, ahead⟩ := occurs.from_lead isSingle
  obtain ⟨r, behindQuote⟩ := occurs.name_behind_front areNames occurs' first
  have closing : (earlier.front ++ earlier.value) ++ earlier.quote :: earlier.behind
      = (attr.before ++ attr.lead) ++ (attr.name ++ text) := by
    have parts := occurs'.whole.symm.trans ahead
    simpa [through, isSingle] using parts
  have notQuoted : earlier.quote ∉ attr.name := fun member =>
    Bool.false_ne_true ((occurs.of_mem_name areNames member).2.2.1.symm.trans occurs'.quoted)
  rcases exists_apart closing notQuoted with ⟨r', behind⟩ | ⟨r', within⟩
  · have whole : attr.before ++ attr.lead = earlier.through ++ r' := by simpa [through] using behind
    have sizes := congrArg List.length whole
    simp only [isSingle, List.length_append, List.length_singleton] at sizes
    obtain rfl : r' = [] := List.length_eq_zero_iff.mp (by omega)
    refine Or.inr ?_
    rw [Finding.Adjoins, nameStart, whole, List.append_nil, ← occurs'.stop_eq reportsName]
    rfl
  · refine Or.inl ⟨?_, ?_⟩
    · rw [nameStart, behindQuote, byteLength_append]
      exact Nat.le_add_right _ _
    · have sizes := congrArg byteLength within
      rw [nameStop, finding, ← byteLength_append, sizes, byteLength_append _ r']
      exact Nat.le_add_right _ _

/-- A value hinders no attribute whose name begins before it. -/
theorem unhindered_before (order : attr.nameStart < (earlier.finding reportsName).start) :
    ¬ (earlier.finding reportsName).Hides attr ∧ ¬ (earlier.finding reportsName).Adjoins attr := by
  have stop : (earlier.finding reportsName).start ≤ (earlier.finding reportsName).stop := Nat.le_add_right _ _
  refine ⟨fun hides => absurd hides.1 (Nat.not_le.mpr order), fun adjoins => ?_⟩
  rw [Finding.Adjoins] at adjoins
  omega

/-- The name stands before the value. -/
theorem nameStart_lt_start (attr : WrittenAttribute) (reportsName : Bool) :
    attr.nameStart < (attr.finding reportsName).start := by
  have positive := attr.quote.utf8Size_pos
  simp only [nameStart, finding, front, opening, byteLength_append, byteLength_cons, byteLength_nil]
  omega

/-- A value hinders no attribute that begins behind the closing quote: the lead of it stands before its name. -/
theorem OccursIn.unhindered_behind (occurs : attr.OccursIn names begins html)
    (occurs' : earlier.OccursIn names begins html) (order : earlier.stop ≤ attr.start) :
    ¬ (earlier.finding reportsName).Hides attr ∧ ¬ (earlier.finding reportsName).Adjoins attr := by
  rw [occurs'.stop_eq reportsName, start] at order
  have sizes : attr.nameStart = byteLength attr.before + byteLength attr.lead := byteLength_append _ _
  have sizes' : attr.nameStop = attr.nameStart + byteLength attr.name := byteLength_append _ _
  refine ⟨fun hides => ?_, fun adjoins => ?_⟩
  · have inside := hides.2
    omega
  · rw [Finding.Adjoins] at adjoins
    rcases occurs.led with ⟨_, empty⟩ | ⟨c, isSingle, _⟩
    · rw [empty, byteLength_nil] at order
      omega
    · have positive : 0 < byteLength attr.lead := byteLength_pos (by simp [isSingle])
      omega

end WrittenAttribute

/-! ### What is reported -/

namespace AttributeRule

variable {rule : AttributeRule} {begins html : Text} {attr : WrittenAttribute}

/-- The match whose value is reported is the attribute. -/
theorem takes_of_mem_findings (accepts : rule.AcceptsFrom begins)
    (areNames : ∀ name ∈ rule.names, IsAttributeName name)
    (apart : ∀ name ∈ rule.names, ∀ name' ∈ rule.names, name <:+ name' → name = name')
    (occurs : attr.OccursIn rule.names begins html)
    (reported : attr.finding rule.reportsName ∈ (rule.matcher.cut html).findings) :
    rule.matcher.Takes .start html attr.before (attr.hit rule.reportsName) := by
  obtain ⟨before, hit, takes, same⟩ := Matcher.mem_findings_iff.mp reported
  obtain ⟨taken, occursTaken, rfl, rfl⟩ := exists_attribute accepts takes
  rw [WrittenAttribute.findingAt_hit] at same
  have whole := occurs.whole.symm.trans occursTaken.whole
  simp only [WrittenAttribute.through, List.append_assoc] at whole
  have front : attr.front = taken.front := (append_inj_of_byteLength whole (congrArg Finding.start same)).1
  rwa [occurs.eq_of_front areNames apart occursTaken front]

/-- No reported value hinders an attribute that is matched, that of the attribute itself included. -/
theorem unhindered_of_takes (accepts : rule.AcceptsFrom begins)
    (areNames : ∀ name ∈ rule.names, IsAttributeName name)
    (occurs : attr.OccursIn rule.names begins html)
    (takes : rule.matcher.Takes .start html attr.before (attr.hit rule.reportsName)) {finding : Finding}
    (member : finding ∈ (rule.matcher.cut html).findings) : ¬ finding.Hides attr ∧ ¬ finding.Adjoins attr := by
  obtain ⟨before, hit, takes', rfl⟩ := Matcher.mem_findings_iff.mp member
  obtain ⟨other, occurs', rfl, rfl⟩ := exists_attribute accepts takes'
  rw [WrittenAttribute.findingAt_hit]
  rcases takes.apart takes' with ⟨same, _⟩ | order | order
  · obtain rfl := occurs.eq_of_before areNames occurs' same
    exact WrittenAttribute.unhindered_before (attr.nameStart_lt_start _)
  · rw [← WrittenAttribute.through_eq] at order
    refine WrittenAttribute.unhindered_before ?_
    calc attr.nameStart < (attr.finding rule.reportsName).start := attr.nameStart_lt_start _
      _ ≤ byteLength attr.through := by
        rw [WrittenAttribute.through, List.append_assoc, byteLength_append]
        exact Nat.le_add_right _ _
      _ ≤ byteLength other.before := byteLength_le_of_length_le (occurs.whole.symm.trans occurs'.ahead) order
      _ ≤ (other.finding rule.reportsName).start := by
        rw [WrittenAttribute.finding, WrittenAttribute.front, byteLength_append]
        exact Nat.le_add_right _ _
  · rw [← WrittenAttribute.through_eq] at order
    exact occurs.unhindered_behind occurs'
      (byteLength_le_of_length_le (occurs'.whole.symm.trans occurs.ahead) order)

/-- **An attribute is reported unless a reported value hinders it**, by holding its name or by ending right before
it. -/
theorem mem_findings_iff_unhindered (accepts : rule.AcceptsFrom begins)
    (areNames : ∀ name ∈ rule.names, IsAttributeName name)
    (apart : ∀ name ∈ rule.names, ∀ name' ∈ rule.names, name <:+ name' → name = name')
    (occurs : attr.OccursIn rule.names begins html) :
    attr.finding rule.reportsName ∈ (rule.matcher.cut html).findings
      ↔ ∀ finding ∈ (rule.matcher.cut html).findings, ¬ finding.Hides attr ∧ ¬ finding.Adjoins attr := by
  constructor
  · intro reported finding member
    exact unhindered_of_takes accepts areNames occurs (takes_of_mem_findings accepts areNames apart occurs reported)
      member
  · intro unhindered
    rcases taken_or_within accepts areNames occurs with takes | ⟨taken, occurs', takes, first, second⟩
    · exact mem_findings_of_takes takes
    · obtain ⟨notHidden, notAdjoined⟩ := unhindered _ (mem_findings_of_takes takes)
      rcases occurs.hidden_or_adjoined areNames occurs' first second with hides | adjoins
      · exact absurd hides notHidden
      · exact absurd adjoins notAdjoined

end AttributeRule

/-- **A reference is reported unless a reported reference hinders it**: its name lies within the value of that one,
or stands right behind the closing quote. -/
theorem reference_reported_iff {html : Text} {attr : WrittenAttribute} (occurs : attr.OccursIn referenceNames [] html) :
    attr.finding true ∈ (referenceAttributes.cut html).findings
      ↔ ∀ finding ∈ (referenceAttributes.cut html).findings, ¬ finding.Hides attr ∧ ¬ finding.Adjoins attr := by
  have accepts : AttributeRule.AcceptsFrom ⟨referenceNames, fun _ => true, true⟩ [] :=
    fun _ => iff_of_true rfl List.nil_prefix
  exact AttributeRule.mem_findings_iff_unhindered accepts (by decide) (by decide) occurs

/-- The second of two references, with a character between them. -/
def secondReference (before : Text) (c : Char) : WrittenAttribute :=
  ⟨before, [c], "list".toList, ['='], '"', ['b'], ['>']⟩

theorem occursIn_secondReference (before : Text) {c : Char} (lead : isLead c = true) :
    (secondReference before c).OccursIn referenceNames [] (before ++ c :: "list=\"b\">".toList) where
  whole := by simp [secondReference, WrittenAttribute.through, WrittenAttribute.front, WrittenAttribute.opening]
  led := Or.inr ⟨c, rfl, lead⟩
  spelt := by
    have read : readWord "list".toList "list".toList = some ("list".toList, []) := by decide
    exact ⟨"list".toList, by decide, (readWord_eq_some_iff.mp read).2⟩
  assigns := ⟨[], [], rfl, by simp, by simp⟩
  quoted := rfl
  closed := by simp [secondReference]
  begun := List.nil_prefix

/-- Behind white space a second reference is reported. -/
theorem reported_behind_space :
    (secondReference "<p for=\"a\"".toList ' ').finding true
      ∈ (referenceAttributes.cut "<p for=\"a\" list=\"b\">".toList).findings :=
  (reference_reported_iff (occursIn_secondReference "<p for=\"a\"".toList (c := ' ') rfl)).mpr (by decide +kernel)

/-- **Right behind the closing quote of a reported value a reference is missed**, although a quote may be the lead of
an attribute and no reported value holds the name. -/
theorem missed_behind_quote :
    ∃ attr : WrittenAttribute, attr.OccursIn referenceNames [] "<p for=\"a\"list=\"b\">".toList
      ∧ (∀ finding ∈ (referenceAttributes.cut "<p for=\"a\"list=\"b\">".toList).findings, ¬ finding.Hides attr)
      ∧ attr.finding true ∉ (referenceAttributes.cut "<p for=\"a\"list=\"b\">".toList).findings :=
  ⟨secondReference "<p for=\"a".toList '"', occursIn_secondReference "<p for=\"a".toList rfl, by decide +kernel,
    by decide +kernel⟩

end Relabel
