import AgileSeal.Cyclic
import AgileSeal.Mixing
import AgileSeal.Proofs.Bytes

set_option autoImplicit false

/-! # Vectors in one number

A number holds a vector of digits of `w` bits, the first lowest: `gather w digit n` is the number
with the given first `n` digits, `fetch w p i` is digit `i` of `p`, and `store w p i digit`
exchanges it. Reading undoes writing (`fetch_gather`), and writing changes one digit only
(`store_gather`).

A step on numbers is one step for the kernel however large they are, so a computation on words or
coefficients that a proof has to run is stated on packed vectors. Such definitions apply the
operations of `Nat` by name, because notation would be unfolded again at every digit.
-/

namespace AgileSeal

namespace Packed

/-- The number with the given first `n` digits of `w` bits. -/
def gather (w : Nat) (digit : Nat → Nat) : Nat → Nat
  | 0 => 0
  | n + 1 => Nat.add (gather w digit n) (Nat.shiftLeft (digit n) (Nat.mul w n))

/-- Digit `i` of `w` bits. -/
def fetch (w p i : Nat) : Nat := Nat.mod (Nat.shiftRight p (Nat.mul w i)) (Nat.pow 2 w)

/-- The number with another digit `i`. -/
def store (w p i digit : Nat) : Nat :=
  Nat.add (Nat.sub p (Nat.shiftLeft (fetch w p i) (Nat.mul w i)))
    (Nat.shiftLeft digit (Nat.mul w i))

variable {w n : Nat} {f g : Nat → Nat}

/-! ## Digits -/

theorem gather_succ (w : Nat) (f : Nat → Nat) (n : Nat) :
    gather w f (n + 1) = gather w f n + f n * 2 ^ (w * n) := by
  rw [← Nat.shiftLeft_eq]
  rfl

theorem fetch_eq (w p i : Nat) : fetch w p i = p / 2 ^ (w * i) % 2 ^ w := by
  rw [← Nat.shiftRight_eq_div_pow]
  rfl

/-- The first digit apart from the others. -/
theorem gather_cons (w : Nat) (f : Nat → Nat) (n : Nat) :
    gather w f (n + 1) = f 0 + 2 ^ w * gather w (fun i => f (i + 1)) n := by
  induction n with
  | zero =>
      rw [gather_succ, Nat.mul_zero, Nat.pow_zero, Nat.mul_one]
      show 0 + f 0 = f 0 + 2 ^ w * 0
      omega
  | succ n ih =>
      have hpow : 2 ^ (w * (n + 1)) = 2 ^ w * 2 ^ (w * n) := by
        rw [Nat.mul_succ, Nat.add_comm, Nat.pow_add]
      have hlast : f (n + 1) * 2 ^ (w * (n + 1)) = 2 ^ w * (f (n + 1) * 2 ^ (w * n)) := by
        rw [hpow, Nat.mul_left_comm]
      calc gather w f (n + 1 + 1)
          = gather w f (n + 1) + f (n + 1) * 2 ^ (w * (n + 1)) := gather_succ w f (n + 1)
        _ = f 0 + 2 ^ w * gather w (fun i => f (i + 1)) n + 2 ^ w * (f (n + 1) * 2 ^ (w * n)) := by
            rw [ih, hlast]
        _ = f 0 + 2 ^ w * gather w (fun i => f (i + 1)) (n + 1) := by
            rw [gather_succ, Nat.mul_add, Nat.add_assoc]

theorem gather_congr (h : ∀ i, i < n → f i = g i) : gather w f n = gather w g n := by
  induction n with
  | zero => rfl
  | succ n ih =>
      rw [gather_succ, gather_succ, h n (Nat.lt_succ_self n),
        ih fun i hi => h i (Nat.lt_succ_of_lt hi)]

/-- Digits of zero make zero. -/
theorem gather_zero (w n : Nat) : gather w (fun _ => 0) n = 0 := by
  induction n with
  | zero => rfl
  | succ n ih => rw [gather_succ, ih, Nat.zero_mul]

theorem fetch_zero (w p : Nat) : fetch w p 0 = p % 2 ^ w := by
  rw [fetch_eq, Nat.mul_zero, Nat.pow_zero, Nat.div_one]

theorem fetch_succ (w p i : Nat) : fetch w p (i + 1) = fetch w (p / 2 ^ w) i := by
  have hpow : 2 ^ (w * (i + 1)) = 2 ^ w * 2 ^ (w * i) := by
    rw [Nat.mul_succ, Nat.add_comm, Nat.pow_add]
  rw [fetch_eq, fetch_eq, hpow, Nat.div_div_eq_div_mul]

theorem fetch_lt (w p i : Nat) : fetch w p i < 2 ^ w := by
  rw [fetch_eq]
  exact Nat.mod_lt _ (Nat.two_pow_pos w)

theorem gather_lt (h : ∀ i, i < n → f i < 2 ^ w) : gather w f n < 2 ^ (w * n) := by
  induction n with
  | zero => exact Nat.two_pow_pos _
  | succ n ih =>
      have hrest : gather w f n < 2 ^ (w * n) := ih fun i hi => h i (Nat.lt_succ_of_lt hi)
      calc gather w f (n + 1)
          = gather w f n + f n * 2 ^ (w * n) := gather_succ w f n
        _ < 2 ^ (w * n) + f n * 2 ^ (w * n) := Nat.add_lt_add_right hrest _
        _ = (f n + 1) * 2 ^ (w * n) := by rw [Nat.succ_mul, Nat.add_comm]
        _ ≤ 2 ^ w * 2 ^ (w * n) := Nat.mul_le_mul_right _ (h n (Nat.lt_succ_self n))
        _ = 2 ^ (w * (n + 1)) := by rw [Nat.mul_succ, Nat.add_comm (w * n), Nat.pow_add]

/-- A digit is read as it was written. -/
theorem fetch_gather (h : ∀ i, i < n → f i < 2 ^ w) {i : Nat} (hi : i < n) :
    fetch w (gather w f n) i = f i := by
  induction i generalizing f n with
  | zero =>
      cases n with
      | zero => omega
      | succ n =>
          rw [gather_cons, fetch_zero, Nat.add_mul_mod_self_left]
          exact Nat.mod_eq_of_lt (h 0 hi)
  | succ i ih =>
      cases n with
      | zero => omega
      | succ n =>
          have hfirst : f 0 / 2 ^ w = 0 := Nat.div_eq_of_lt (h 0 (Nat.succ_pos n))
          rw [gather_cons, fetch_succ, Nat.add_mul_div_left _ _ (Nat.two_pow_pos w), hfirst,
            Nat.zero_add]
          exact ih (fun k hk => h (k + 1) (Nat.succ_lt_succ hk)) (Nat.lt_of_succ_lt_succ hi)

/-- A digit that is exchanged changes the number by the difference in its place. -/
theorem gather_exchange (w : Nat) (f : Nat → Nat) (digit : Nat) {i : Nat} (hi : i < n) :
    gather w (fun j => if j = i then digit else f j) n + f i * 2 ^ (w * i)
      = gather w f n + digit * 2 ^ (w * i) := by
  induction n with
  | zero => omega
  | succ n ih =>
      rw [gather_succ, gather_succ]
      rcases Nat.lt_succ_iff_lt_or_eq.mp hi with hlt | rfl
      · rw [if_neg (Nat.ne_of_gt hlt)]
        have hrest := ih hlt
        omega
      · have hlow : gather w (fun j => if j = i then digit else f j) i = gather w f i :=
          gather_congr fun j hj => if_neg (Nat.ne_of_lt hj)
        rw [if_pos rfl, hlow]
        omega

/-- A digit is written where it belongs. -/
theorem store_gather (h : ∀ i, i < n → f i < 2 ^ w) (digit : Nat) {i : Nat} (hi : i < n) :
    store w (gather w f n) i digit = gather w (fun j => if j = i then digit else f j) n := by
  have hshift (x : Nat) : Nat.shiftLeft x (Nat.mul w i) = x * 2 ^ (w * i) := Nat.shiftLeft_eq x _
  have hexchange := gather_exchange w f digit hi
  have hcleared := gather_exchange w f 0 hi
  rw [store, fetch_gather h hi, hshift, hshift]
  show gather w f n - f i * 2 ^ (w * i) + digit * 2 ^ (w * i) = _
  omega

end Packed

/-! ## Bytes -/

namespace Bytes

/-- Digits of whole bytes are read from the bytes. -/
theorem fetch_toNatLE (size : Nat) (bytes : Bytes) (i : Nat) :
    Packed.fetch (8 * size) (toNatLE bytes) i
      = toNatLE ((bytes.drop (size * i)).take size) := by
  have hbytes (k : Nat) : 2 ^ (8 * k) = 256 ^ k := Nat.pow_mul 2 8 k
  rw [Packed.fetch_eq, toNatLE_take, toNatLE_drop, Nat.mul_assoc, hbytes, hbytes]

/-- Digits of whole bytes are written one after the other. -/
theorem flatMap_ofNatLE {f : Nat → Nat} (size n : Nat) (h : ∀ i, i < n → f i < 2 ^ (8 * size)) :
    (List.range n).flatMap (fun i => ofNatLE size (f i))
      = ofNatLE (size * n) (Packed.gather (8 * size) f n) := by
  induction n generalizing f with
  | zero => rfl
  | succ n ih =>
      have hpow : 2 ^ (8 * size) = 256 ^ size := Nat.pow_mul 2 8 size
      have hcount : size * (n + 1) = size + size * n := by rw [Nat.mul_succ, Nat.add_comm]
      have hfirst : f 0 < 256 ^ size := hpow ▸ h 0 (Nat.succ_pos n)
      have hlow (r : Nat) : ofNatLE size (f 0 + 256 ^ size * r) = ofNatLE size (f 0) := by
        rw [← ofNatLE_mod, Nat.add_mul_mod_self_left, ofNatLE_mod]
      have hhigh (r : Nat) : (f 0 + 256 ^ size * r) / 256 ^ size = r := by
        rw [Nat.add_mul_div_left _ _ (Nat.pow_pos (by decide)), Nat.div_eq_of_lt hfirst,
          Nat.zero_add]
      rw [List.range_succ_eq_map, List.flatMap_cons, List.flatMap_map, Packed.gather_cons, hcount,
        ofNatLE_add, hpow, hlow, hhigh, ← ih fun i hi => h (i + 1) (Nat.succ_lt_succ hi)]

end Bytes

/-! ## Vectors -/

section

variable {α : Type} {n : Nat}

theorem cyclic_eq_get (v : Vector α (n + 1)) {i : Nat} (hi : i < n + 1) :
    cyclic v i = v.get ⟨i, hi⟩ := by
  have hfin : Fin.ofNat (n + 1) i = ⟨i, hi⟩ := Fin.ext (Nat.mod_eq_of_lt hi)
  rw [cyclic, hfin]

theorem cyclic_ofFn (f : Fin (n + 1) → α) {i : Nat} (hi : i < n + 1) :
    cyclic (Vector.ofFn f) i = f ⟨i, hi⟩ := by
  rw [cyclic_eq_get _ hi]
  exact Vector.getElem_ofFn hi

theorem cyclic_mod (v : Vector α (n + 1)) (i : Nat) : cyclic v (i % (n + 1)) = cyclic v i := by
  have hfin : Fin.ofNat (n + 1) (i % (n + 1)) = Fin.ofNat (n + 1) i := Fin.ext (Nat.mod_mod _ _)
  rw [cyclic, hfin, cyclic]

theorem cyclic_set (v : Vector α (n + 1)) (a : α) {i j : Nat} (hi : i < n + 1) (hj : j < n + 1) :
    cyclic (v.set i a hi) j = if j = i then a else cyclic v j := by
  rw [cyclic_eq_get _ hj, cyclic_eq_get _ hj]
  show (v.set i a hi)[j] = if j = i then a else v[j]
  rw [Vector.getElem_set]
  simp only [eq_comm]

theorem ext_cyclic {v u : Vector α (n + 1)} (h : ∀ i, i < n + 1 → cyclic v i = cyclic u i) :
    v = u := by
  refine Vector.ext fun i hi => ?_
  have hi' := h i hi
  rwa [cyclic_eq_get _ hi, cyclic_eq_get _ hi] at hi'

theorem cyclic_map {β : Type} (f : α → β) (v : Vector α (n + 1)) (i : Nat) :
    cyclic (v.map f) i = f (cyclic v i) := Vector.getElem_map _ _

theorem cyclic_zipWith {β γ : Type} (f : α → β → γ) (v : Vector α (n + 1)) (u : Vector β (n + 1))
    (i : Nat) : cyclic (Vector.zipWith f v u) i = f (cyclic v i) (cyclic u i) :=
  Vector.getElem_zipWith _

theorem toList_eq_map_cyclic (v : Vector α (n + 1)) :
    v.toList = (List.range (n + 1)).map (cyclic v) := by
  apply List.ext_getElem
  · rw [Vector.length_toList, List.length_map, List.length_range]
  · intro i hi hi'
    have hlt : i < n + 1 := by rwa [Vector.length_toList] at hi
    rw [List.getElem_map, List.getElem_range, cyclic_eq_get v hlt, Vector.getElem_toList]
    rfl

/-- The entries of a vector as digits. -/
def Packed.ofVector (w : Nat) (value : α → Nat) (v : Vector α (n + 1)) : Nat :=
  gather w (fun i => value (cyclic v i)) (n + 1)

theorem Packed.fetch_ofVector {w : Nat} {value : α → Nat} (h : ∀ a, value a < 2 ^ w)
    (v : Vector α (n + 1)) {i : Nat} (hi : i < n + 1) :
    fetch w (ofVector w value v) i = value (cyclic v i) :=
  fetch_gather (fun j _ => h (cyclic v j)) hi

theorem Packed.ofVector_ofFn {w : Nat} {value : α → Nat} {f : Fin (n + 1) → α} {g : Nat → Nat}
    (h : ∀ i (hi : i < n + 1), value (f ⟨i, hi⟩) = g i) :
    ofVector w value (Vector.ofFn f) = gather w g (n + 1) := by
  refine gather_congr fun i hi => ?_
  rw [cyclic_ofFn f hi, h i hi]

theorem Packed.ofVector_set {w : Nat} {value : α → Nat} (h : ∀ a, value a < 2 ^ w)
    (v : Vector α (n + 1)) (a : α) {i : Nat} (hi : i < n + 1) :
    ofVector w value (v.set i a hi) = store w (ofVector w value v) i (value a) := by
  rw [ofVector, ofVector, store_gather (fun j _ => h (cyclic v j)) _ hi]
  refine gather_congr fun j hj => ?_
  rw [cyclic_set v a hi hj, apply_ite value]

end

/-! ## Words -/

namespace Packed

variable {n : Nat}

/-- Words of 64 bits as one number. -/
def ofWords (words : Vector UInt64 (n + 1)) : Nat := ofVector 64 UInt64.toNat words

theorem fetch_ofWords (words : Vector UInt64 (n + 1)) {i : Nat} (hi : i < n + 1) :
    fetch 64 (ofWords words) i = (cyclic words i).toNat :=
  fetch_ofVector UInt64.toNat_lt words hi

theorem fetch_mod_ofWords (words : Vector UInt64 (n + 1)) (i : Nat) :
    fetch 64 (ofWords words) (Nat.mod i (n + 1)) = (cyclic words i).toNat := by
  rw [← cyclic_mod words i]
  exact fetch_ofWords words (Nat.mod_lt _ (Nat.succ_pos n))

theorem fetch_val_ofWords (words : Vector UInt64 (n + 1)) (i : Fin (n + 1)) :
    fetch 64 (ofWords words) i.val = (words.get i).toNat := by
  rw [fetch_ofWords words i.isLt, cyclic_eq_get words i.isLt]

theorem ofWords_set (words : Vector UInt64 (n + 1)) (word : UInt64) {i : Nat} (hi : i < n + 1) :
    ofWords (words.set i word hi) = store 64 (ofWords words) i word.toNat :=
  ofVector_set UInt64.toNat_lt words word hi

theorem ofNatLE_ofWords (words : Vector UInt64 (n + 1)) :
    words.toList.flatMap (fun word => Bytes.ofNatLE 8 word.toNat)
      = Bytes.ofNatLE (8 * (n + 1)) (ofWords words) := by
  rw [toList_eq_map_cyclic, List.flatMap_map]
  exact Bytes.flatMap_ofNatLE 8 (n + 1) fun i _ => (cyclic words i).toNat_lt

/-- The words that are read from bytes are digits. -/
theorem toNat_getD_words (bytes : Bytes) (i : Nat) :
    (((Bytes.chunks 8 bytes).map fun b => UInt64.ofNat (Bytes.toNatLE b)).toArray.getD i 0).toNat
      = fetch 64 (Bytes.toNatLE bytes) i := by
  have hword : ((Bytes.chunks 8 bytes).map fun b => UInt64.ofNat (Bytes.toNatLE b)).toArray.getD i 0
      = UInt64.ofNat (Bytes.toNatLE ((Bytes.chunks 8 bytes).getD i [])) := by
    rw [Array.getD_eq_getD_getElem?, List.getElem?_toArray, List.getElem?_map,
      List.getD_eq_getElem?_getD]
    cases (Bytes.chunks 8 bytes)[i]? with
    | none => rfl
    | some b => rfl
  have hlt : fetch (8 * 8) (Bytes.toNatLE bytes) i < 2 ^ 64 := fetch_lt _ _ i
  rw [hword, Bytes.getD_chunks (by decide), ← Bytes.fetch_toNatLE]
  exact UInt64.toNat_ofNat_of_lt' hlt

/-! ## Squares of sixteen words -/

/-- Four words as numbers. -/
def ofFour (words : UInt64 × UInt64 × UInt64 × UInt64) : Nat × Nat × Nat × Nat :=
  (words.1.toNat, words.2.1.toNat, words.2.2.1.toNat, words.2.2.2.toNat)

/-- The mix of four words of a square. -/
def update (q : Quartet) (mix : Nat → Nat → Nat → Nat → Nat × Nat × Nat × Nat) (square : Nat) :
    Nat :=
  match mix (fetch 64 square q.a.val) (fetch 64 square q.b.val) (fetch 64 square q.c.val)
    (fetch 64 square q.d.val) with
  | (a, b, c, d) =>
    store 64 (store 64 (store 64 (store 64 square q.a.val a) q.b.val b) q.c.val c) q.d.val d

/-- The mix of a whole square. -/
def mixSquare (mix : Nat → Nat → Nat → Nat → Nat × Nat × Nat × Nat) (square : Nat) : Nat :=
  Quartet.columnsThenDiagonals.foldl (fun s q => update q mix s) square

section

variable {mix : UInt64 → UInt64 → UInt64 → UInt64 → UInt64 × UInt64 × UInt64 × UInt64}
  {mix' : Nat → Nat → Nat → Nat → Nat × Nat × Nat × Nat}

theorem ofWords_update
    (h : ∀ a b c d, ofFour (mix a b c d) = mix' a.toNat b.toNat c.toNat d.toNat) (q : Quartet)
    (square : Vector UInt64 16) :
    ofWords (n := 15) (q.update mix square) = update q mix' (ofWords (n := 15) square) := by
  have hget (i : Fin 16) : fetch 64 (ofWords (n := 15) square) i.val = (square.get i).toNat :=
    fetch_val_ofWords (n := 15) square i
  have hset (s : Vector UInt64 16) (i : Fin 16) (word : UInt64) :
      ofWords (n := 15) (s.set i.val word i.isLt)
        = store 64 (ofWords (n := 15) s) i.val word.toNat := ofWords_set (n := 15) s word i.isLt
  rw [update, hget, hget, hget, hget, ← h, Quartet.update]
  show ofWords (n := 15) ((((square.set q.a.val _ _).set q.b.val _ _).set q.c.val _ _).set
    q.d.val _ _) = _
  rw [hset, hset, hset, hset]
  rfl

theorem ofWords_mixSquare
    (h : ∀ a b c d, ofFour (mix a b c d) = mix' a.toNat b.toNat c.toNat d.toNat)
    (square : Vector UInt64 16) :
    ofWords (n := 15) (AgileSeal.mixSquare mix square)
      = mixSquare mix' (ofWords (n := 15) square) :=
  Eq.symm (List.foldl_hom (ofWords (n := 15)) fun square q => (ofWords_update h q square).symm)

end

end Packed

end AgileSeal
