import AgileSeal.Random.Stream

set_option autoImplicit false

/-! # Draws and scripts

A *draw* is a segment of the stream together with what it was drawn for. An operation that uses the
stream in no other way is a *script* (`Script`): it ends with a value, or it draws some bytes and
goes on with them. Whatever the bytes are, the draws of a script follow each other without a gap
(`Script.spent`), and of such draws no two have a byte in common (`Consecutive.pairwise_disjoint`).
-/

namespace AgileSeal

/-! ## Draws -/

/-- What random bytes are drawn for. -/
inductive Purpose
  | passphraseSalt
  | classicalSecret
  | pqcSecret
  | cipherSalt
  | nonce
  | classicalKey
  | pqcKey
deriving DecidableEq

/-- A segment of a stream and what it was drawn for. -/
structure Draw where
  purpose : Purpose
  start : Nat
  count : Nat
deriving DecidableEq

namespace Draw

/-- The position after a draw. -/
def stop (d : Draw) : Nat := d.start + d.count

/-- A draw takes the byte at a position. -/
def Takes (d : Draw) (i : Nat) : Prop := d.start ≤ i ∧ i < d.stop

/-- Two draws that have no byte in common. -/
def Disjoint (d e : Draw) : Prop := ∀ i, ¬(d.Takes i ∧ e.Takes i)

/-- A draw has nothing in common with those that start behind it. -/
theorem disjoint_of_le {d e : Draw} (h : d.stop ≤ e.start) : d.Disjoint e := by
  rintro i ⟨⟨-, hd⟩, ⟨he, -⟩⟩
  omega

end Draw

/-- Draws that follow each other without a gap, from one position to another. -/
def Consecutive : Nat → List Draw → Nat → Prop
  | start, [], stop => start = stop
  | start, d :: rest, stop => d.start = start ∧ Consecutive d.stop rest stop

namespace Consecutive

variable {start middle stop : Nat} {ds es : List Draw}

theorem append (h : Consecutive start ds middle) (h' : Consecutive middle es stop) :
    Consecutive start (ds ++ es) stop := by
  induction ds generalizing start with
  | nil =>
      rw [show start = middle from h]
      exact h'
  | cons d rest ih =>
      obtain ⟨hd, hrest⟩ := h
      exact ⟨hd, ih hrest⟩

/-- All draws are made between the two positions. -/
theorem bounds (h : Consecutive start ds stop) :
    start ≤ stop ∧ ∀ d ∈ ds, start ≤ d.start ∧ d.stop ≤ stop := by
  induction ds generalizing start with
  | nil => exact ⟨Nat.le_of_eq h, fun d hd => by cases hd⟩
  | cons d rest ih =>
      obtain ⟨hd, hrest⟩ := h
      obtain ⟨hle, hbounds⟩ := ih hrest
      have hcount : d.start ≤ d.stop := Nat.le_add_right _ _
      refine ⟨by omega, fun e he => ?_⟩
      rcases List.mem_cons.mp he with rfl | he
      · exact ⟨Nat.le_of_eq hd.symm, hle⟩
      · obtain ⟨hstart, hstop⟩ := hbounds e he
        exact ⟨by omega, hstop⟩

/-- No byte is drawn twice. -/
theorem pairwise_disjoint (h : Consecutive start ds stop) : ds.Pairwise Draw.Disjoint := by
  induction ds generalizing start with
  | nil => exact .nil
  | cons d rest ih =>
      obtain ⟨-, hrest⟩ := h
      refine List.pairwise_cons.mpr ⟨fun e he => ?_, ih hrest⟩
      obtain ⟨hle, -⟩ := (bounds hrest).2 e he
      exact Draw.disjoint_of_le hle

end Consecutive

/-- A stream that some draws have led to from another one. -/
structure RandomStream.Spent (s : RandomStream) (ds : List Draw) (s' : RandomStream) : Prop where
  consecutive : Consecutive s.position ds s'.position
  byteAt : s'.byteAt = s.byteAt

namespace RandomStream.Spent

variable {s s₁ s₂ : RandomStream} {ds es : List Draw}

theorem nothing (s : RandomStream) : s.Spent [] s := ⟨rfl, rfl⟩

theorem append (h : s.Spent ds s₁) (h' : s₁.Spent es s₂) : s.Spent (ds ++ es) s₂ :=
  ⟨h.consecutive.append h'.consecutive, h'.byteAt.trans h.byteAt⟩

/-- The bytes at given positions stay the same. -/
theorem segment_eq (h : s.Spent ds s₁) : s₁.segment = s.segment := by
  funext start count
  rw [segment, segment, h.byteAt]

end RandomStream.Spent

/-! ## Scripts -/

/-- An operation that uses random bytes: it has a value, or it draws bytes and goes on. -/
inductive Script (α : Type)
  | done (a : α)
  | draw (purpose : Purpose) (count : Nat) (next : Bytes → Script α)

namespace Script

variable {α β : Type}

/-- The value of a script on a stream, and the stream after it. -/
def run : Script α → RandomStream → α × RandomStream
  | done a, s => (a, s)
  | draw _ count next, s => (next (s.draw count).1).run (s.draw count).2

/-- The draws of a script on a stream. -/
def draws : Script α → RandomStream → List Draw
  | done _, _ => []
  | draw purpose count next, s =>
    ⟨purpose, s.position, count⟩ :: (next (s.draw count).1).draws (s.draw count).2

/-- A script that goes on with another one. -/
def bind (p : Script α) (f : α → Script β) : Script β :=
  match p with
  | done a => f a
  | draw purpose count next => draw purpose count fun bytes => (next bytes).bind f

theorem run_bind (p : Script α) (f : α → Script β) (s : RandomStream) :
    (p.bind f).run s = (f (p.run s).1).run (p.run s).2 := by
  induction p generalizing s with
  | done a => rfl
  | draw purpose count next ih => exact ih _ _

theorem draws_bind (p : Script α) (f : α → Script β) (s : RandomStream) :
    (p.bind f).draws s = p.draws s ++ (f (p.run s).1).draws (p.run s).2 := by
  induction p generalizing s with
  | done a => rfl
  | draw purpose count next ih => exact congrArg (_ :: ·) (ih _ _)

/-- The draws of a script lead from where the stream was to where it is. -/
theorem spent (p : Script α) (s : RandomStream) : s.Spent (p.draws s) (p.run s).2 := by
  induction p generalizing s with
  | done a => exact .nothing s
  | draw purpose count next ih =>
      obtain ⟨hconsecutive, hbytes⟩ := ih (s.draw count).1 (s.draw count).2
      exact ⟨⟨rfl, hconsecutive⟩, hbytes⟩

end Script

end AgileSeal
