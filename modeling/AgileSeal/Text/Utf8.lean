import AgileSeal.Bytes

set_option autoImplicit false

/-! # Text as bytes

Texts are written in UTF-8. Reading accepts exactly what writing produces: a byte string
that is not the encoding of any text is refused (`ofUtf8?_eq_some_iff`).
-/

namespace AgileSeal.Text

/-- The UTF-8 encoding of a text. -/
def utf8 (s : String) : Bytes := s.toByteArray.data.toList

/-- The text a byte string encodes, if it encodes one. -/
def ofUtf8? (bytes : Bytes) : Option String := String.fromUTF8? ⟨bytes.toArray⟩

/-- A byte string reads as a text exactly when it is what that text is written as. -/
theorem ofUtf8?_eq_some_iff (bytes : Bytes) (s : String) :
    ofUtf8? bytes = some s ↔ bytes = utf8 s := by
  constructor
  · intro h
    unfold ofUtf8? String.fromUTF8? at h
    split at h
    · simp only [Option.some.injEq] at h
      subst h
      simp [utf8, String.fromUTF8]
    · simp at h
  · intro h
    subst h
    have valid : (⟨(utf8 s).toArray⟩ : ByteArray) = s.toByteArray := by simp [utf8]
    unfold ofUtf8? String.fromUTF8?
    rw [valid, dif_pos s.isValidUTF8]
    rfl

@[simp] theorem ofUtf8?_utf8 (s : String) : ofUtf8? (utf8 s) = some s :=
  (ofUtf8?_eq_some_iff _ _).2 rfl

/-- A text is known by its bytes. -/
theorem utf8_inj {s t : String} : utf8 s = utf8 t ↔ s = t := by
  constructor
  · intro h
    have hread := ofUtf8?_utf8 s
    rw [h, ofUtf8?_utf8] at hread
    exact (Option.some.inj hread).symm
  · rintro rfl
    rfl

end AgileSeal.Text
