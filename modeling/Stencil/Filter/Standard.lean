import Stencil.Filter.Arithmetic
import Stencil.Filter.Items

/-! # The standard filters -/

namespace Stencil.Filter

/-- The standard filters by name. -/
def standard : Assoc Filter := [
  ("size", size),
  ("upcase", ofText Text.upcase),
  ("downcase", ofText Text.downcase),
  ("capitalize", ofText Text.capitalize),
  ("strip", ofText Text.trim),
  ("lstrip", ofText Text.trimStart),
  ("rstrip", ofText Text.trimEnd),
  ("escape", escape),
  ("append", append),
  ("prepend", prepend),
  ("remove", remove),
  ("replace", replace),
  ("split", split),
  ("join", join),
  ("first", first),
  ("last", last),
  ("reverse", reverse),
  ("uniq", uniq),
  ("compact", compact),
  ("sort", sort),
  ("map", map),
  ("default", default),
  ("plus", plus),
  ("minus", minus),
  ("times", times),
  ("divided_by", dividedBy),
  ("modulo", modulo),
  ("abs", abs),
  ("ceil", ceil),
  ("floor", floor),
  ("round", round),
  ("at_least", atLeast),
  ("at_most", atMost),
  ("truncate", truncate),
  ("slice", slice)]

end Stencil.Filter
