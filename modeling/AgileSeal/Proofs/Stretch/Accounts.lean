import AgileSeal.Proofs.Operations
import AgileSeal.Stretch.Cache

set_option autoImplicit false

/-! # The accounts of a stretch cache

A cache does not stretch anything twice: it has one entry for each computation, and no two of its
entries are for the same passphrase, salt and cost (`StretchCache.Accounts`). Stretching keeps it
so, whether it finds a key, computes one or fails (`Accounts.stretch`).
-/

namespace AgileSeal

/-- What a stretched key was computed from. -/
def StretchEntry.source (e : StretchEntry) : String × Bytes × StretchCost :=
  (e.passphrase, e.salt, e.cost)

namespace StretchCache

theorem find?_eq_none_iff {c : StretchCache} {passphrase : String} {salt : Bytes}
    {cost : StretchCost} : c.find? passphrase salt cost = none ↔
      (passphrase, salt, cost) ∉ c.entries.map StretchEntry.source := by
  rw [find?, Option.map_eq_none_iff, List.find?_eq_none, List.mem_map]
  constructor
  · rintro h ⟨e, he, hsource⟩
    obtain ⟨hpassphrase, hrest⟩ := Prod.mk.inj hsource
    obtain ⟨hsalt, hcost⟩ := Prod.mk.inj hrest
    exact h e he (decide_eq_true ⟨hcost, hsalt, hpassphrase⟩)
  · rintro h e he hkey
    obtain ⟨rfl, rfl, rfl⟩ := of_decide_eq_true hkey
    exact h ⟨e, he, rfl⟩

/-- **The accounts of a cache**: it has counted its entries, and no two of them are for the same
passphrase, salt and cost. -/
structure Accounts (c : StretchCache) : Prop where
  counted : c.stretches = c.entries.length
  distinct : (c.entries.map StretchEntry.source).Nodup

theorem accounts_empty : empty.Accounts := ⟨rfl, .nil⟩

/-- Stretching keeps the accounts. -/
theorem Accounts.stretch {c : StretchCache} (h : c.Accounts) (passphrase : String) (salt : Bytes)
    (cost : StretchCost) : (c.stretch passphrase salt cost).2.Accounts := by
  rcases c.stretch_cases passphrase salt cost with ⟨key, -, hfound⟩ | ⟨key, hfind, -, hcomputed⟩ |
    ⟨e, -, -, hfails⟩
  · rw [hfound]
    exact h
  · rw [hcomputed]
    refine ⟨?_, ?_⟩
    · rw [List.length_append, ← h.counted]
      rfl
    · rw [List.map_append, List.map_singleton, (List.perm_append_singleton _ _).nodup_iff]
      exact List.nodup_cons.mpr ⟨find?_eq_none_iff.mp hfind, h.distinct⟩
  · rw [hfails]
    exact h

end StretchCache

end AgileSeal
