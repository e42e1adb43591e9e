/-
**Generated names.**

The name of a token consists of a given beginning, the rank of the token among the renamed tokens
and a short digest of the token. So it does not depend on where and how often tokens occur. A name
that is reserved or already given is followed by an underscore and the first number that makes it
unused.

* `shortDigest`: the first digits of the digest of a token.
* `generateNames`: the names of a set of tokens.
* `nameTokens`: the names of those tokens that are to be renamed.
-/

import Relabel.Digest.Sha256
import Relabel.Naming.Renaming
import Relabel.Naming.Unused
import Relabel.Token.Verdict

namespace Relabel

/-- The first six hexadecimal digits of the digest of a token. -/
def shortDigest (token : Text) : Text :=
  (Sha256.hexDigest (Utf8.encode token)).take 6

/-- The name of the token of a given rank, before it is made unused. -/
def baseName (start : Text) (rank : Nat) (token : Text) : Text :=
  start ++ Text.padZeros 3 (Text.decimal rank) ++ ['_'] ++ shortDigest token

/-- A name followed by a number; the name itself for the number zero. -/
def numberedName (name : Text) (k : Nat) : Text :=
  if k = 0 then name else name ++ ['_'] ++ Text.decimal k

/-- Names tokens in turn, the first of them with the given rank, with names that are not used. -/
def nameFrom (start : Text) (used : List Text) (rank : Nat) : List Text → List (Text × Text)
  | [] => []
  | token :: tokens =>
    let name := firstUnused (used.contains ·) (numberedName (baseName start rank token)) 0
      used.length
    (token, name) :: nameFrom start (name :: used) (rank + 1) tokens

/-- Names for all tokens of a set, none of them reserved and no two alike. -/
def generateNames (start : Text) (reserved : List Text) (tokens : TextSet) : Renaming :=
  OrderedMap.ofList (nameFrom start reserved 1 tokens.toList)

/-- The tokens of a set that are to be renamed. -/
def selectTokens (kind : Kind) (mode : Mode) (tokens : TextSet) : List Text :=
  tokens.toList.filter fun token => (judge kind mode token).rename

/-- Names for the tokens of a set that are to be renamed. No name is a token of the set. -/
def nameTokens (kind : Kind) (mode : Mode) (start : Text) (tokens : TextSet) : Renaming :=
  generateNames start tokens.toList (TextSet.ofTexts (selectTokens kind mode tokens))

end Relabel
