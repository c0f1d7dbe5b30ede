import Typings.Warning

/-!
Values with the warnings that came up while they were made.
-/

namespace Typings

/-- A value, and the warnings in the order in which they came up. -/
structure Noted (α : Type) where
  value : α
  warnings : List Warning := []

namespace Noted

variable {α β : Type}

/-- A value about which there is one warning. -/
def warned (warning : Warning) (value : α) : Noted α :=
  ⟨value, [warning]⟩

/-- What is made of a value comes with the warnings about that value first. -/
def bind (noted : Noted α) (next : α → Noted β) : Noted β :=
  let result := next noted.value
  ⟨result.value, noted.warnings ++ result.warnings⟩

instance : Monad Noted where
  pure value := ⟨value, []⟩
  bind := Noted.bind

@[simp]
theorem pure_value (a : α) : (pure a : Noted α).value = a := rfl

@[simp]
theorem pure_warnings (a : α) : (pure a : Noted α).warnings = [] := rfl

@[simp]
theorem bind_value (noted : Noted α) (next : α → Noted β)
    : (noted >>= next).value = (next noted.value).value := rfl

@[simp]
theorem bind_warnings (noted : Noted α) (next : α → Noted β)
    : (noted >>= next).warnings = noted.warnings ++ (next noted.value).warnings := rfl

instance : LawfulMonad Noted :=
  LawfulMonad.mk' Noted
    (fun noted => by cases noted; simp [Functor.map, Noted.bind])
    (fun a next => by simp [Bind.bind, Pure.pure, Noted.bind])
    (fun noted f g => by simp [Bind.bind, Noted.bind, List.append_assoc])

end Noted

end Typings
