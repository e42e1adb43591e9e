/-
**The names that a run gives.**

A run fails exactly if its options cannot be used, and otherwise its names are decided by the sets of
tokens alone: not by the order of the tokens in the documents, nor by how often they occur, nor by the
names of other tokens.

* `ExactNames`: what holds of the names for a set of tokens.
* `processPair_eq_ok_iff`: what a run returns.
* `processPair_exactNames`: the names of a run are as they should be.
-/

import Relabel.Command.Tables
import Relabel.Proofs.Naming.Assigned
import Relabel.Proofs.Naming.Spelled
import Relabel.Run.Process

namespace Relabel

/-! ### What a run returns -/

/-- The outcome of a run with options that can be used. -/
def processed (options : Options) (pair : Pair) : Outcome :=
  let names : Renamings :=
    ⟨namesFor options pair.tokens .cls, namesFor options pair.tokens .id⟩
  ⟨pair.relabel names, pair.tokens, names, none⟩

/-- A run returns an outcome exactly if the options can be used. -/
theorem processPair_eq_ok_iff [InternationalNames] {options : Options} {pair : Pair} {outcome : Outcome} :
    processPair options pair = .ok outcome
      ↔ options.check = .ok () ∧ outcome = processed options pair := by
  unfold processPair
  cases checked : options.check with
  | error failure => simp [bind, Except.bind]
  | ok checkedAll =>
    have result : ∀ first second : Outcome,
        (Except.ok first : Except Failure Outcome) = .ok second ↔ second = first :=
      fun _ _ => ⟨fun same => (Except.ok.inj same).symm, fun same => same ▸ rfl⟩
    exact (result (processed options pair) outcome).trans ⟨fun same => ⟨rfl, same⟩, And.right⟩

/-- A run fails exactly as the options do. -/
theorem processPair_eq_error_iff [InternationalNames] {options : Options} {pair : Pair} {failure : Failure} :
    processPair options pair = .error failure ↔ options.check = .error failure := by
  unfold processPair
  cases checked : options.check with
  | error other => simp [bind, Except.bind]
  | ok checkedAll => simp [bind, Except.bind, pure, Except.pure]

/-- The names of an outcome are those for the tokens of the pair. -/
theorem names_ofKind_processed (options : Options) (pair : Pair) (kind : Kind) :
    (processed options pair).names.ofKind kind
      = nameTokens kind options.mode (options.start kind) (pair.tokens.ofKind kind) := by
  cases kind <;> rfl

/-- **Options can be used** exactly if each of them can. -/
theorem check_eq_ok_iff [InternationalNames] {options : Options} :
    options.check = .ok ()
      ↔ (∀ kind, isIdentifierStart (options.start kind) = true) ∧ isPlainDirectory options.scriptsDirectory = true
          ∧ options.checkEncoding = .ok () ∧ ∃ base, options.base = .ok base := by
  have starts : ∀ kind, options.checkStart kind = .ok () ↔ isIdentifierStart (options.start kind) = true := by
    intro kind
    unfold Options.checkStart
    split <;> simp [*]
  have directory : options.checkDirectory = .ok () ↔ isPlainDirectory options.scriptsDirectory = true := by
    unfold Options.checkDirectory
    split <;> simp [*]
  have both : (∀ kind, isIdentifierStart (options.start kind) = true)
      ↔ options.checkStart .cls = .ok () ∧ options.checkStart .id = .ok () := by
    rw [starts, starts]
    exact ⟨fun all => ⟨all .cls, all .id⟩, fun two kind => by cases kind <;> simp [two]⟩
  rw [both, ← directory]
  unfold Options.check
  cases options.checkStart .cls <;> cases options.checkStart .id <;> cases options.checkDirectory
    <;> cases options.checkEncoding <;> cases options.base <;> simp [bind, Except.bind, pure, Except.pure]

/-- A run has checked what its names begin with. -/
theorem isIdentifierStart_of_check [InternationalNames] {options : Options} (checked : options.check = .ok ())
    (kind : Kind) : isIdentifierStart (options.start kind) = true :=
  (check_eq_ok_iff.mp checked).1 kind

/-! ### The names -/

/-- What holds of the names for some tokens of one kind. Tokens that are to be renamed are ranked among
themselves. -/
structure ExactNames (kind : Kind) (mode : Mode) (start : Text) (tokens : List Text)
    (names : Renaming) : Prop where
  /-- The tokens that are to be renamed are named, and no others. -/
  keys : ∀ token, token ∈ names.keys ↔ token ∈ tokens ∧ (judge kind mode token).rename = true
  /-- The name of a token is the first of `c`, `c_1`, `c_2`, … that is no token, where `c` is spelled with the rank
  and the digest of the token. -/
  firstFree : ∀ token name, names.get? token = some name → ∃ c,
    Wanted start (byteRank (tokens.filter fun other => (judge kind mode other).rename) token) token c
      ∧ FirstFree tokens (fun k => if k = 0 then c else c ++ "_" ++ Nat.toDigits 10 k) name
  distinct : names.values.Nodup
  fresh : ∀ name ∈ names.values, name ∉ tokens
  identifiers : ∀ name ∈ names.values, IsIdentifier name

theorem exactNames_nameTokens {kind : Kind} {mode : Mode} {start : Text}
    (valid : isIdentifierStart start = true) (tokens : TextSet) :
    ExactNames kind mode start tokens.toList (nameTokens kind mode start tokens) where
  keys _ := mem_keys_nameTokens.trans mem_selectTokens
  firstFree token _ found := ⟨_, wanted_baseName start _ token, nameTokens_firstFree found⟩
  distinct := nodup_values_nameTokens
  fresh name member := by
    obtain ⟨⟨token, _⟩, inEntries, rfl⟩ := List.mem_map.mp member
    exact nameTokens_fresh (OrderedMap.get?_eq_some_iff.mpr inEntries)
  identifiers name member := by
    obtain ⟨⟨token, _⟩, inEntries, rfl⟩ := List.mem_map.mp member
    exact isIdentifierStart_iff.mp (nameTokens_identifier valid (OrderedMap.get?_eq_some_iff.mpr inEntries))

/-- **A run fails exactly as its options do, and otherwise names its tokens exactly.** The names of one
kind are the same for any two pairs with the same tokens of that kind. -/
theorem processPair_exactNames [InternationalNames] (options : Options) (pair : Pair) :
    (∀ failure, processPair options pair = .error failure ↔ options.check = .error failure)
      ∧ ((∃ outcome, processPair options pair = .ok outcome) ↔ options.check = .ok ())
      ∧ ∀ outcome, processPair options pair = .ok outcome → ∀ kind,
          ExactNames kind options.mode (options.start kind) (pair.tokens.ofKind kind).toList
            (outcome.names.ofKind kind)
          ∧ ∀ other otherOutcome, processPair options other = .ok otherOutcome →
              (∀ token, token ∈ (other.tokens.ofKind kind).toList
                ↔ token ∈ (pair.tokens.ofKind kind).toList) →
              otherOutcome.names.ofKind kind = outcome.names.ofKind kind := by
  refine ⟨fun failure => processPair_eq_error_iff, ?_, fun outcome ran kind => ?_⟩
  · constructor
    · rintro ⟨outcome, ran⟩
      exact (processPair_eq_ok_iff.mp ran).1
    · intro checked
      exact ⟨processed options pair, processPair_eq_ok_iff.mpr ⟨checked, rfl⟩⟩
  · obtain ⟨checked, rfl⟩ := processPair_eq_ok_iff.mp ran
    rw [names_ofKind_processed]
    refine ⟨exactNames_nameTokens (isIdentifierStart_of_check checked kind) _, ?_⟩
    intro other otherOutcome otherRan sameTokens
    obtain ⟨_, rfl⟩ := processPair_eq_ok_iff.mp otherRan
    rw [names_ofKind_processed, TextSet.ext sameTokens]

/-- A long id, and three classes of which one looks like the name that is wanted for another. -/
def collidingPair : Pair where
  html := "<p class='B123456789 c001_51ff20' id='" ++ List.replicate 70 'A' ++ "'></p>"
  css := ".A123456789{}.B123456789{}"

/-- The same classes and the same id in another order, some of them more than once. -/
def reorderedPair : Pair where
  html := "<p class='c001_51ff20 A123456789'></p><p id='" ++ List.replicate 70 'A' ++ "'></p>"
  css := ".c001_51ff20{}.B123456789{}.B123456789{}"

/-- The names of these classes. The first of them goes without the name that it wants. -/
def collidingClasses : List (Text × Text) :=
  [("A123456789", "c001_51ff20_1"), ("B123456789", "c002_41f8e0"), ("c001_51ff20", "c003_e302d2")]

/-- The name of the id. -/
def collidingIds : List (Text × Text) :=
  [(List.replicate 70 'A', "i001_01d3a1")]

/-- Both documents have these names. -/
theorem processPair_exactNames_colliding :
    ∃ first second, processPair {} collidingPair = .ok first ∧ processPair {} reorderedPair = .ok second
      ∧ (∀ kind, ExactNames kind .lenient (({} : Options).start kind) (collidingPair.tokens.ofKind kind).toList
          (first.names.ofKind kind))
      ∧ first.names.classes.entries = collidingClasses ∧ first.names.ids.entries = collidingIds
      ∧ ∀ kind, second.names.ofKind kind = first.names.ofKind kind := by
  have usable : ({} : Options).check = .ok () := rfl
  have firstRan := processPair_eq_ok_iff.mpr ⟨usable, rfl (a := processed {} collidingPair)⟩
  have secondRan := processPair_eq_ok_iff.mpr ⟨usable, rfl (a := processed {} reorderedPair)⟩
  have exact := (processPair_exactNames {} collidingPair).2.2 _ firstRan
  have sameTokens : ∀ kind, (reorderedPair.tokens.ofKind kind).toList = (collidingPair.tokens.ofKind kind).toList := by
    rintro (_ | _) <;> decide +kernel
  refine ⟨_, _, firstRan, secondRan, fun kind => (exact kind).1, by decide +kernel, by decide +kernel, fun kind => ?_⟩
  exact (exact kind).2 _ _ secondRan fun token => by rw [sameTokens]

end Relabel
