/-
**Runs one after the other.**

Each run renames the names of the run before again, unless they are kept. The documents of a run need not
be separable, so what every run keeps is less: they are lasting, and the ids that are renamed next are
names. So every run renames its tokens without loss, and so do all runs together.

* `Pair.after`, `nameAfter`: the documents that runs leave, and what they make of a token.
* `settled_processed`: the names of a run on tidy documents.
* `Renewable`: what every run keeps.
* `processChain_tokensFollow`: the tokens of the last documents follow the names of all runs.
-/

import Relabel.Proofs.Run.References
import Relabel.Proofs.Run.Tokens
import Relabel.Proofs.Substitution.Repeated

namespace Relabel

/-! ### What runs leave -/

/-- The documents that runs leave. A run that fails leaves them as they are. -/
def Pair.after (pair : Pair) : List (Except Failure Outcome) → Pair
  | [] => pair
  | .error _ :: runs => pair.after runs
  | .ok outcome :: runs => outcome.pair.after runs

/-- What runs make of a token: each that does not fail gives it a new name or keeps it. -/
def nameAfter (kind : Kind) (token : Text) : List (Except Failure Outcome) → Text
  | [] => token
  | .error _ :: runs => nameAfter kind token runs
  | .ok outcome :: runs => nameAfter kind ((outcome.names.ofKind kind).apply token) runs

/-- What holds of the tokens of one kind before and after some runs. -/
structure ChainFollows (kind : Kind) (pair : Pair) (runs : List (Except Failure Outcome)) : Prop where
  /-- The last tokens are what the runs have made of the first. -/
  image : ∀ token, token ∈ ((pair.after runs).tokens.ofKind kind).toList
    ↔ ∃ before ∈ (pair.tokens.ofKind kind).toList, nameAfter kind before runs = token
  /-- No two tokens become the same. -/
  distinct : ∀ first ∈ (pair.tokens.ofKind kind).toList, ∀ second ∈ (pair.tokens.ofKind kind).toList,
    nameAfter kind first runs = nameAfter kind second runs → first = second

/-! ### What every run keeps -/

/-- Ids that begin like those of layout nodes hold no characters but those of names. -/
def Tidy (pair : Pair) : Prop :=
  ∀ id ∈ (pair.tokens.ofKind .id).toList, Text.startsWith id layoutNodeStart = true → IsName id

/-- Documents that can be relabelled any number of times. -/
def Renewable (pair : Pair) : Prop :=
  Separable pair.html ∨ Lasting pair.html ∧ Tidy pair

section Run

variable [InternationalNames] {options : Options} {pair : Pair} (checked : options.check = .ok ())

include checked

theorem apt_processed : (processed options pair).names.Apt := by
  intro kind token name found
  rw [names_ofKind_processed] at found
  have valid := isIdentifierStart_of_check checked kind
  exact ⟨nameTokens_identifier valid found, discreet_nameTokens valid found⟩

/-- **On tidy documents only names are renamed as ids**, and no new name is one that is renamed. -/
theorem settled_processed (tidy : Tidy pair) : (processed options pair).names.Settled := by
  have ids : (processed options pair).names.ids
      = nameTokens .id options.mode (options.start .id) (pair.tokens.ofKind .id) :=
    names_ofKind_processed options pair .id
  refine ⟨apt_processed checked, fun id name found => ?_, fun id name found => ?_⟩
  · rw [ids] at found
    obtain ⟨isToken, renamed⟩ := mem_selectTokens.mp (get?_nameTokens.mp found).1
    exact (plain_of_rename renamed).elim (tidy id isToken) fun isName => isName
  · rw [ids] at found ⊢
    rw [Option.eq_none_iff_forall_ne_some]
    intro name' found'
    exact nameTokens_fresh found (mem_selectTokens.mp (get?_nameTokens.mp found').1).1

/-- The documents of a run follow its names. -/
theorem Renewable.valuesFollow (renewable : Renewable pair) :
    ValuesFollow (processed options pair).names pair.html := by
  rcases renewable with separable | ⟨lasting, tidy⟩
  · exact separable.valuesFollow (apt_processed checked).giveNames
  · exact lasting.valuesFollow (settled_processed checked tidy)

/-- **The documents of a run are tidy.** Ids that begin like those of layout nodes were all renamed. -/
theorem tidy_processed (follow : ValuesFollow (processed options pair).names pair.html) :
    Tidy (processed options pair).pair := by
  intro id isToken starts
  obtain ⟨before, isBefore, rfl⟩ := ((tokensFollow_processed checked follow .id).image id).mp isToken
  unfold Renaming.apply at starts ⊢
  cases found : ((processed options pair).names.ofKind .id).get? before with
  | some name => exact (apt_processed checked .id before name found).2.isName
  | none =>
    rw [found, Option.getD_none] at starts
    rw [names_ofKind_processed] at found
    have kept := kept_of_get?_eq_none isBefore found
    rw [rename_of_startsWith starts] at kept
    exact absurd kept (by decide)

/-- **What every run keeps.** -/
theorem Renewable.processed (renewable : Renewable pair) :
    Renewable (processed options pair).pair := by
  have follow := renewable.valuesFollow checked
  have lasting : Lasting pair.html := renewable.elim Separable.lasting And.left
  exact Or.inr ⟨lasting.relabelDocument (apt_processed checked) follow, tidy_processed checked follow⟩

end Run

/-! ### All runs -/

/-- One run more in front. -/
theorem ChainFollows.cons {kind : Kind} {pair : Pair} {outcome : Outcome}
    {runs : List (Except Failure Outcome)}
    (first : TokensFollow (outcome.names.ofKind kind) (pair.tokens.ofKind kind)
      (outcome.pair.tokens.ofKind kind))
    (later : ChainFollows kind outcome.pair runs) : ChainFollows kind pair (.ok outcome :: runs) where
  image token := by
    rw [Pair.after, later.image]
    constructor
    · rintro ⟨between, isBetween, rfl⟩
      obtain ⟨before, isBefore, rfl⟩ := (first.image between).mp isBetween
      exact ⟨before, isBefore, rfl⟩
    · rintro ⟨before, isBefore, rfl⟩
      exact ⟨_, (first.image _).mpr ⟨before, isBefore, rfl⟩, rfl⟩
  distinct one isOne other isOther same :=
    first.distinct one isOne other isOther
      (later.distinct _ ((first.image _).mpr ⟨one, isOne, rfl⟩) _
        ((first.image _).mpr ⟨other, isOther, rfl⟩) same)

theorem chainFollows_of_renewable [InternationalNames] {pair : Pair} (renewable : Renewable pair) (runs : List Options)
    (kind : Kind) : ChainFollows kind pair (processChain pair runs) := by
  induction runs generalizing pair with
  | nil => exact ⟨fun token => by simp [processChain, Pair.after, nameAfter], fun _ _ _ _ same => same⟩
  | cons options runs ih =>
    rw [processChain]
    cases ran : processPair options pair with
    | error failure =>
      obtain ⟨image, distinct⟩ := ih renewable
      exact ⟨image, distinct⟩
    | ok outcome =>
      obtain ⟨checked, rfl⟩ := processPair_eq_ok_iff.mp ran
      exact (ih (renewable.processed checked)).cons
        (tokensFollow_processed checked (renewable.valuesFollow checked) kind)

/-- **Any number of runs rename the tokens without loss.** Together they give different names to different
tokens, and the tokens of the documents that they leave are these names. -/
theorem processChain_tokensFollow [InternationalNames] {pair : Pair} (separable : Separable pair.html)
    (runs : List Options) (kind : Kind) : ChainFollows kind pair (processChain pair runs) :=
  chainFollows_of_renewable (Or.inl separable) runs kind

/-- A document with the id of a layout node that holds white space. So the body of its style element
refers to no name. -/
def layoutPair : Pair where
  html := "<style>#w-node-a\u3000b\x7bfill:url(#w-node-a\u3000b)\x7d</style><p class='A123456789'></p>"
  css := []

/-- Three runs, the second of which fails. After the first of them the document is not separable. -/
theorem processChain_tokensFollow_layoutNode :
    ∃ runs : List Options, Separable layoutPair.html
      ∧ ¬ Separable (processed {} layoutPair).pair.html
      ∧ ChainFollows .id layoutPair (processChain layoutPair runs)
      ∧ nameAfter .id "w-node-a\u3000b" (processChain layoutPair (runs.take 1)) = "i001_a3507f"
      ∧ nameAfter .id "w-node-a\u3000b" (processChain layoutPair runs) = "x001_084ddd"
      ∧ "x001_084ddd".toList
          ∈ ((layoutPair.after (processChain layoutPair runs)).tokens.ofKind .id).toList := by
  let runs : List Options := [{}, { classStart := "1" }, { idStart := "x" }]
  have separable : Separable layoutPair.html := by decide +kernel
  have follow := processChain_tokensFollow separable runs .id
  have last : nameAfter .id "w-node-a\u3000b" (processChain layoutPair runs) = "x001_084ddd" := by
    decide +kernel
  refine ⟨runs, separable, by decide +kernel, follow, by decide +kernel, last, ?_⟩
  exact (follow.image _).mpr ⟨_, by decide +kernel, last⟩

end Relabel
