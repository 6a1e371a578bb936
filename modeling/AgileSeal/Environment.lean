import AgileSeal.Text.Utf8

set_option autoImplicit false

/-! # Environment variables

A variable holds any bytes. A variable whose value is no text is treated as one that is not
set.
-/

namespace AgileSeal

/-- The variables that are set; of two with one name the first counts. -/
structure Environment where
  values : List (String × Bytes)

namespace Environment

/-- No variable is set. -/
def empty : Environment := ⟨[]⟩

/-- The text of a variable. -/
def get? (env : Environment) (name : String) : Option String :=
  (env.values.find? fun v => v.1 = name).bind fun v => Text.ofUtf8? v.2

/-- Unsets a variable. -/
def unset (env : Environment) (name : String) : Environment :=
  ⟨env.values.filter fun v => v.1 ≠ name⟩

/-- Sets a variable. -/
def set (env : Environment) (name : String) (value : Bytes) : Environment :=
  ⟨(name, value) :: env.values⟩

theorem get?_set (env : Environment) (name other : String) (value : Bytes) :
    (env.set name value).get? other =
      if other = name then Text.ofUtf8? value else env.get? other := by
  by_cases h : other = name
  · simp [set, get?, h]
  · simp [set, get?, h, Ne.symm h]

end Environment

end AgileSeal
