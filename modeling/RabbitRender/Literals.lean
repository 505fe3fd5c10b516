/- RabbitRender/Literals
   layer: model
   source: include/ggl_context.h, swrender/context.h
   digest: The lengths of the arrays that the contexts hold by value. -/

import Mathlib.Algebra.GroupWithZero.Nat

set_option autoImplicit false

namespace RabbitRender.GL

/-! Each of these literals is the length of an array with an index 0. -/

instance (priority := 2000) neZero_two : NeZero 2 := ⟨by decide⟩
instance (priority := 2000) neZero_three : NeZero 3 := ⟨by decide⟩
instance (priority := 2000) neZero_four : NeZero 4 := ⟨by decide⟩
instance (priority := 2000) neZero_eight : NeZero 8 := ⟨by decide⟩
instance (priority := 2000) neZero_sixteen : NeZero 16 := ⟨by decide⟩
instance (priority := 2000) neZero_thirtyFour : NeZero 34 := ⟨by decide⟩
instance (priority := 2000) neZero_word : NeZero 65536 := ⟨by decide⟩

end RabbitRender.GL
