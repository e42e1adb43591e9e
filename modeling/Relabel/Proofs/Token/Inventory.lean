/-
**Membership in inventories.**

* `Selects`: a stylesheet has a selector of a kind and with a name.
* `mem_addStylesheet`, `mem_addDocument`: what a stylesheet and a document add.
* `mem_ofTexts`: the tokens of both.
-/

import Relabel.Proofs.Container.Lookup
import Relabel.Token.Inventory

namespace Relabel

/-- A stylesheet has a selector of the given kind and with the given name. -/
def Selects (css : Text) (kind : Kind) (token : Text) : Prop :=
  ∃ selector ∈ (selectors.cut css).found, selector.kind = kind ∧ selector.value = token

/-- The attributes of a document hold a token. -/
def Bears (html : Text) : (kind : Kind) → (token : Text) → Prop
  | .cls, token => ∃ value ∈ (classAttributes.cut html).values, token ∈ Text.words value
  | .id, token => token ∈ (idAttributes.cut html).values ∧ isBlankToken token = false

namespace Inventory

variable {inventory : Inventory} {kind : Kind} {token : Text}

@[simp]
theorem mem_add {kind' : Kind} {added : Text} :
    token ∈ ((inventory.add kind' added).ofKind kind).toList
      ↔ (kind' = kind ∧ token = added) ∨ token ∈ (inventory.ofKind kind).toList := by
  cases kind' <;> cases kind <;> simp [add, ofKind]

/-- Adding selectors one after the other. -/
theorem addStylesheet_eq (css : Text) :
    inventory.addStylesheet css
      = (selectors.cut css).found.foldl
          (fun inventory selector => inventory.add selector.kind selector.value) inventory := by
  have general : ∀ (found : List Segment) (offset : Nat) (inventory : Inventory),
      ((found.map (·.kind)).zip (Segments.findingsFrom offset found)).foldl
          (fun inventory entry => inventory.add entry.1 entry.2.value) inventory
        = found.foldl (fun inventory selector => inventory.add selector.kind selector.value)
            inventory := by
    intro found
    induction found with
    | nil => exact fun _ _ => rfl
    | cons selector found ih => exact fun offset inventory => ih _ _
  exact general _ 0 inventory

/-- What a stylesheet adds. -/
theorem mem_addStylesheet {css : Text} :
    token ∈ ((inventory.addStylesheet css).ofKind kind).toList
      ↔ Selects css kind token ∨ token ∈ (inventory.ofKind kind).toList := by
  rw [addStylesheet_eq, Selects]
  induction (selectors.cut css).found generalizing inventory with
  | nil => simp
  | cons selector found ih =>
    rw [List.foldl_cons, ih, mem_add, List.exists_mem_cons_iff, or_assoc, or_left_comm]
    rw [eq_comm (a := token)]

/-- What style elements add. -/
theorem mem_foldl_addStylesheet {bodies : List Text} :
    token ∈ ((bodies.foldl addStylesheet inventory).ofKind kind).toList
      ↔ (∃ body ∈ bodies, Selects body kind token) ∨ token ∈ (inventory.ofKind kind).toList := by
  induction bodies generalizing inventory with
  | nil => simp
  | cons body bodies ih =>
    rw [List.foldl_cons, ih, mem_addStylesheet, List.exists_mem_cons_iff, or_assoc, or_left_comm]

/-- What a document adds. -/
theorem mem_addDocument {html : Text} :
    token ∈ ((inventory.addDocument html).ofKind kind).toList
      ↔ (∃ body ∈ (styleBodies.cut html).values, Selects body kind token) ∨ Bears html kind token
        ∨ token ∈ (inventory.ofKind kind).toList := by
  rw [addDocument, mem_foldl_addStylesheet]
  cases kind <;> simp [ofKind, Bears]

/-- **The tokens of a document and its stylesheet.** -/
theorem mem_ofTexts {html css : Text} :
    token ∈ ((ofTexts html css).ofKind kind).toList
      ↔ Selects css kind token ∨ (∃ body ∈ (styleBodies.cut html).values, Selects body kind token)
        ∨ Bears html kind token := by
  have none : token ∉ (empty.ofKind kind).toList := by cases kind <;> exact List.not_mem_nil
  rw [ofTexts, mem_addStylesheet, mem_addDocument]
  simp [none]

end Inventory

end Relabel
