/-
**The variables of an environment.**

* `Environment.text?`: the value of a variable, if it is text.
* `Environment.set`: gives a variable a value.
-/

import Relabel.Encoding.Utf8
import Relabel.OrderedMap

namespace Relabel

/-- The variables of an environment and their values. -/
abbrev Environment := OrderedMap Bytes

namespace Environment

/-- The value of a variable, if it is set to a text. -/
def text? (environment : Environment) (name : Text) : Option Text :=
  (OrderedMap.get? environment name).bind Utf8.decode?

/-- The environment in which a variable has a text as its value. -/
def set (environment : Environment) (name value : Text) : Environment :=
  OrderedMap.insert environment name (Utf8.encode value)

end Environment

end Relabel
