import AgileSeal.Proofs.Stretch.Accounts
import AgileSeal.Proofs.Stretch.Cache
import Mathlib.Data.Finset.Card

set_option autoImplicit false

/-! # Calls of a stretch cache

A cache is used by calls that are made one after the other (`StretchCache.stretchAll`). What a cache
is after some calls is kept by every further call (`StretchCache.After.stretch`): its keys are right
and it holds the sources of the calls that succeeded, each of them once. So all calls are answered
as if there were no cache, and what has been computed is what there was to compute
(`StretchCache.stretchAll_exact`).
-/

namespace AgileSeal

/-- The stretched key of a passphrase with a salt and a cost. -/
def stretchSource (source : String × Bytes × StretchCost) : Except Error Bytes :=
  stretchPassphrase source.1 source.2.1 source.2.2

namespace StretchCache

/-- The answers to calls that are made one after the other, and the cache that they leave. -/
def stretchAll (c : StretchCache) :
    List (String × Bytes × StretchCost) → List (Except Error Bytes) × StretchCache
  | [] => ([], c)
  | (passphrase, salt, cost) :: calls =>
    let (answer, next) := c.stretch passphrase salt cost
    let (answers, last) := next.stretchAll calls
    (answer :: answers, last)

/-- Calls go on with the cache that earlier ones leave. -/
theorem stretchAll_append (c : StretchCache) (calls more : List (String × Bytes × StretchCost)) :
    (c.stretchAll (calls ++ more)).2 = ((c.stretchAll calls).2.stretchAll more).2 := by
  induction calls generalizing c with
  | nil => rfl
  | cons source rest ih => exact ih (c.stretch source.1 source.2.1 source.2.2).2

/-- **A cache after some calls**: its keys are right, its accounts are in order and it holds the
sources of the calls that succeeded. -/
structure After (calls : List (String × Bytes × StretchCost)) (c : StretchCache) : Prop where
  sound : c.Sound
  accounts : c.Accounts
  held : ∀ source, source ∈ c.entries.map StretchEntry.source ↔
    source ∈ calls ∧ (stretchSource source).isOk = true

theorem after_empty : empty.After [] :=
  ⟨sound_empty, accounts_empty, fun _ => iff_of_false List.not_mem_nil fun h =>
    List.not_mem_nil h.1⟩

variable {c : StretchCache} {calls : List (String × Bytes × StretchCost)}

/-- One more call keeps what is held, if it was held before or cannot be stretched. -/
theorem After.held_append (h : c.After calls) {source : String × Bytes × StretchCost}
    (hsource : source ∈ c.entries.map StretchEntry.source ∨ (stretchSource source).isOk = false)
    (other : String × Bytes × StretchCost) : other ∈ c.entries.map StretchEntry.source ↔
      other ∈ calls ++ [source] ∧ (stretchSource other).isOk = true := by
  rw [h.held, List.mem_append, List.mem_singleton]
  constructor
  · rintro ⟨hmem, hok⟩
    exact ⟨.inl hmem, hok⟩
  · rintro ⟨hmem | rfl, hok⟩
    · exact ⟨hmem, hok⟩
    · rcases hsource with hheld | hfails
      · exact (h.held other).mp hheld
      · rw [hok] at hfails
        cases hfails

/-- **A call** is answered as without a cache, and the cache is then one after this call too. -/
theorem After.stretch (h : c.After calls) (passphrase : String) (salt : Bytes)
    (cost : StretchCost) :
    (c.stretch passphrase salt cost).1 = stretchPassphrase passphrase salt cost ∧
      (c.stretch passphrase salt cost).2.After (calls ++ [(passphrase, salt, cost)]) := by
  obtain ⟨next, hnext, hsound⟩ := h.sound.stretch passphrase salt cost
  have haccounts := h.accounts.stretch passphrase salt cost
  refine ⟨by rw [hnext], by rwa [hnext], haccounts, ?_⟩
  rcases c.stretch_cases passphrase salt cost with ⟨key, hfind, hfound⟩ | ⟨key, -, hkey, hnew⟩ |
    ⟨e, -, hfail, hfails⟩
  · -- only what is held can be found
    rw [hfound]
    refine h.held_append (.inl ?_)
    by_contra hnot
    rw [find?_eq_none_iff.mpr hnot] at hfind
    cases hfind
  · intro source
    have hok : (stretchSource (passphrase, salt, cost)).isOk = true := by
      rw [stretchSource, hkey]
      rfl
    rw [hnew, List.map_append, List.mem_append, h.held, List.mem_append, List.map_singleton,
      List.mem_singleton, List.mem_singleton, or_and_right]
    refine or_congr_right ?_
    constructor
    · rintro rfl
      exact ⟨rfl, hok⟩
    · rintro ⟨rfl, -⟩
      rfl
  · -- nothing is kept, and no later call of this source can succeed either
    rw [hfails]
    refine h.held_append (.inr ?_)
    rw [stretchSource, hfail]
    rfl

/-- **A run of calls** is answered as without a cache. -/
theorem After.stretchAll (h : c.After calls) (more : List (String × Bytes × StretchCost)) :
    (c.stretchAll more).1 = more.map stretchSource ∧
      (c.stretchAll more).2.After (calls ++ more) := by
  induction more generalizing c calls with
  | nil =>
      rw [List.append_nil]
      exact ⟨rfl, h⟩
  | cons source more ih =>
      obtain ⟨passphrase, salt, cost⟩ := source
      obtain ⟨hanswer, hnext⟩ := h.stretch passphrase salt cost
      obtain ⟨hanswers, hlast⟩ := ih hnext
      rw [List.append_assoc, List.singleton_append] at hlast
      exact ⟨congrArg₂ List.cons hanswer hanswers, hlast⟩

/-- As much has been computed as there was to compute. -/
theorem After.stretches_eq (h : c.After calls) :
    c.stretches = (calls.filter fun source => (stretchSource source).isOk).toFinset.card := by
  have hsources : (c.entries.map StretchEntry.source).toFinset
      = (calls.filter fun source => (stretchSource source).isOk).toFinset := by
    ext source
    rw [List.mem_toFinset, h.held, List.mem_toFinset, List.mem_filter]
  rw [← hsources, List.toFinset_card_of_nodup h.accounts.distinct, List.length_map,
    h.accounts.counted]

/-- **A cache is transparent and exact.** Whatever is stretched with a new cache, in whatever order
and how often, each call gives the key or the error that it gives without a cache. Afterwards the
count of computations is the number of different sources whose call succeeded, there is one entry
for each of them and no two are for the same source, and a call that fails changes nothing. -/
theorem stretchAll_exact (calls : List (String × Bytes × StretchCost)) :
    ∃ c : StretchCache, empty.stretchAll calls = (calls.map stretchSource, c) ∧
      c.stretches = (calls.filter fun source => (stretchSource source).isOk).toFinset.card ∧
      c.entries.length = c.stretches ∧
      (c.entries.map StretchEntry.source).Nodup ∧
      ∀ (passphrase : String) (salt : Bytes) (cost : StretchCost) (e : Error),
        (c.stretch passphrase salt cost).1 = .error e →
          (c.stretch passphrase salt cost).2 = c := by
  obtain ⟨hanswers, hafter⟩ := after_empty.stretchAll calls
  refine ⟨(empty.stretchAll calls).2, Prod.ext hanswers rfl, ?_, hafter.accounts.counted.symm,
    hafter.accounts.distinct, stretch_error _⟩
  exact hafter.stretches_eq

end StretchCache

end AgileSeal
