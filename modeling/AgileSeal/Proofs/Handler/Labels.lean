import AgileSeal.Proofs.Engine.Labels
import AgileSeal.Proofs.Search.Refusals

set_option autoImplicit false

/-! # Labels and handlers

A handler looks at the label twice: before it looks for keys, and again when its engine opens the
bundle. The first look decides: a handler that insists on the label is one that does not, guarded by
the label, and of a foreign bundle it does not stretch anything (`Handler.decryptWith_exact`). A
search insists on the label only where it matches, so that whether it insists makes no difference to
any of its attempts (`Search.attempt_of_mem`).
-/

namespace AgileSeal

namespace Handler

variable {h : Handler} {b : Bundle}

/-- Under its own label a bundle has the same reasons to be turned down as in spite of it. -/
theorem refusal?_of_own (hlabel : b.suiteId = h.suiteId) :
    h.refusal? b .exact = h.refusal? b .override := by
  have hexact : ¬(LabelMatch.exact = .exact ∧ b.suiteId ≠ h.suiteId) := by
    rintro ⟨-, hforeign⟩
    exact hforeign hlabel
  have hoverride : ¬(LabelMatch.override = .exact ∧ b.suiteId ≠ h.suiteId) := by
    rintro ⟨hmode, -⟩
    cases hmode
  rw [refusal?, refusal?, if_neg hexact, if_neg hoverride]

/-- Under a foreign label that is the reason. -/
theorem refusal?_of_foreign (hlabel : b.suiteId ≠ h.suiteId) :
    h.refusal? b .exact = some "bundle belongs to another suite" := by
  rw [refusal?, if_pos ⟨rfl, hlabel⟩]

/-- Under its own label a bundle is opened as in spite of it, whatever has been stretched. -/
theorem decryptWith_of_own (hlabel : b.suiteId = h.suiteId) (files : FileSystem)
    (credentials : Credentials) (cache : StretchCache) :
    h.decryptWith files b credentials .exact cache
      = h.decryptWith files b credentials .override cache := by
  have hengine (keys : KeyMaterial) :
      h.engine.decrypt b keys .exact = h.engine.decrypt b keys .override := by
    have hown : b.suiteId = h.engine.suite.id := hlabel
    rw [Engine.decrypt_exact, if_pos hown]
  simp only [decryptWith, refusal?_of_own hlabel, hengine]

/-- **A handler that insists on the label** is one that does not, guarded by the label: a foreign
bundle is turned down with the one error, and nothing is stretched for it. -/
theorem decryptWith_exact (h : Handler) (files : FileSystem) (b : Bundle)
    (credentials : Credentials) (cache : StretchCache) :
    h.decryptWith files b credentials .exact cache =
      if b.suiteId = h.suiteId then h.decryptWith files b credentials .override cache
      else do
        Logged.report (h.rejected "bundle belongs to another suite")
        return (.error .decryption, cache) := by
  by_cases hlabel : b.suiteId = h.suiteId
  · rw [if_pos hlabel, decryptWith_of_own hlabel]
  · rw [if_neg hlabel, decryptWith, refusal?_of_foreign hlabel]
    rfl

/-- **To insist on the label is to guard it.** With any handler, credentials and stretched keys, and
with any engine and keys, insisting on the label fails with the one error under a foreign label and
leaves what has been stretched as it is; under the own label it gives the same result and leaves the
same stretched keys as not insisting. -/
theorem exact_guards_override (h : Handler) (files : FileSystem) (b : Bundle)
    (credentials : Credentials) (cache : StretchCache) (e : Engine) (keys : KeyMaterial) :
    (h.decryptWith files b credentials .exact cache).value =
        (if b.suiteId = h.suiteId then (h.decryptWith files b credentials .override cache).value
        else (.error .decryption, cache)) ∧
      (e.decrypt b keys .exact).value =
        if b.suiteId = e.suite.id then (e.decrypt b keys .override).value
        else .error .decryption := by
  rw [decryptWith_exact, Engine.decrypt_exact]
  constructor
  · split <;> rfl
  · split <;> rfl

end Handler

namespace Search

/-- Whether the attempts of a search insist on the label makes no difference to them. -/
theorem attempt_of_mem {blob : Bytes} {cs : List Handler} {a : Handler × Phase}
    (ha : a ∈ sequence (Bundle.suiteIdOf? blob) cs) (files : FileSystem)
    (credentials : Credentials) (cache : StretchCache) :
    attempt a.1 files blob credentials a.2.label cache
      = attempt a.1 files blob credentials .override cache := by
  rw [attempt, attempt]
  cases hparse : a.1.parse blob with
  | error e => rfl
  | ok b =>
      cases hmode : a.2.label with
      | override => rfl
      | exact =>
          have hown := own_label_of_mem ha hparse
          have hlabel : b.suiteId = a.1.suiteId := by
            by_contra hforeign
            exact hown ⟨hmode, hforeign⟩
          simp only [Handler.decryptWith_of_own hlabel]

end Search

end AgileSeal
