/-
**Which tokens are renamed.**

Rules are tried in a fixed order and the first that applies decides. Ids have one rule more than
classes: an id of a layout node is renamed whatever else holds of it.

* `judge`: the decision on a token, with the rule that made it.
-/

import Relabel.Token.Kind
import Relabel.Token.Shape

namespace Relabel

/-! ### What a token looks like -/

/-- Whether a token is empty or consists of white space. -/
def isBlankToken (token : Text) : Bool :=
  Text.strip token = []

/-- Classes that icon libraries use on their own. -/
def iconNames : List Text :=
  ["fa".toList, "fas".toList, "far".toList, "fab".toList, "fal".toList, "fad".toList, "fat".toList,
    "bi".toList, "mdi".toList, "las".toList, "lar".toList, "lab".toList]

/-- Beginnings of the classes of icon libraries. -/
def iconStarts : List Text :=
  ["fa-".toList, "bi-".toList, "glyphicon".toList, "material-icons".toList,
    "material-symbols".toList, "icon-".toList, "ion-".toList, "ti-".toList, "mdi-".toList,
    "la-".toList]

/-- Whether a token belongs to an icon library, up to case. -/
def isIcon (token : Text) : Bool :=
  let name := Text.lowerCase token
  iconNames.contains name || iconStarts.any (Text.startsWith name)

/-- What the ids of layout nodes usually begin with. -/
def layoutNodeStart : Text := "w-node-"

/-- Whether a token is the id of a layout node. -/
def isLayoutNodeId (token : Text) : Bool :=
  Text.startsWith token layoutNodeStart || isLayoutNode token

/-! ### Rules -/

/-- The rules that decide about a token. -/
inductive Rule where
  | blank
  | layoutNode
  | icon
  | meaningful
  | guid
  | hexDigest
  | hashLike
  /-- No other rule applies. -/
  | fallback
  deriving DecidableEq, Repr

/-- Whether a token is renamed, and by which rule. -/
structure Verdict where
  rename : Bool
  rule : Rule
  deriving DecidableEq, Repr

/-- The rules for a kind of token, in order. -/
def rulesFor : Kind → List Rule
  | .cls => [.blank, .icon, .meaningful, .guid, .hexDigest, .hashLike]
  | .id => [.blank, .layoutNode, .icon, .meaningful, .guid, .hexDigest, .hashLike]

/-- Whether a rule applies to a token. -/
def Rule.applies (rule : Rule) (mode : Mode) (token : Text) : Bool :=
  match rule with
  | .blank => isBlankToken token
  | .layoutNode => isLayoutNodeId token
  | .icon => isIcon token
  | .meaningful => isMeaningful token
  | .guid => isGuid token
  | .hexDigest => isHexDigest token
  | .hashLike => mode == .lenient && isHashLike token
  | .fallback => true

/-- Whether tokens to which a rule applies are renamed. -/
def Rule.renames : Rule → Bool
  | .layoutNode | .guid | .hexDigest | .hashLike => true
  | .blank | .icon | .meaningful | .fallback => false

/-- The name of a rule in log lines. -/
def Rule.label : Rule → Text
  | .blank => "Blank"
  | .layoutNode => "WebflowNode"
  | .icon => "IconLibrary"
  | .meaningful => "MeaningfulName"
  | .guid => "Guid"
  | .hexDigest => "BareHex"
  | .hashLike => "Opaque"
  | .fallback => "Fallthrough"

/-- The decision on a token: that of the first rule that applies. -/
def judge (kind : Kind) (mode : Mode) (token : Text) : Verdict :=
  let rule := ((rulesFor kind).find? (·.applies mode token)).getD .fallback
  ⟨rule.renames, rule⟩

end Relabel
