import Mathlib.Order.Basic
import Mathlib.Tactic.Common

/-!
# Keys that expire

A store of values with a time to live. An entry whose time has come is not there for any command,
whether or not it has been removed: every command sees a key through `live`.

Only the commands are here that a lock in such a store uses: `SET … NX`, which writes a key that is
not there, and `EXPIRE`, which gives a key that is there a new time to live and does nothing to one
that is not.
-/

namespace ExpiringStore

open Function

/-- A value and the time at which it expires. -/
structure Entry (β : Type*) where
  value : β
  till : ℕ
deriving DecidableEq

/-- The entries by key, expired ones included. -/
abbrev Store (κ β : Type*) := κ → Option (Entry β)

variable {κ β : Type*} {store : Store κ β} {key : κ} {e : Entry β}

/-- The entry of a key that has not expired. -/
def Store.live (store : Store κ β) (now : ℕ) (key : κ) : Option (Entry β) :=
  (store key).filter fun e => now < e.till

@[simp]
theorem Store.live_eq_some_iff {now : ℕ} :
    store.live now key = some e ↔ store key = some e ∧ now < e.till := by
  rw [live, Option.filter_eq_some_iff, decide_eq_true_eq]

/-- An entry stays until its time has come. -/
theorem Store.live_later {now later : ℕ} (h : store.live now key = some e)
    (hlater : later < e.till) : store.live later key = some e :=
  live_eq_some_iff.mpr ⟨(live_eq_some_iff.mp h).1, hlater⟩

section Commands

variable [DecidableEq κ]

/-- `SET key value NX` with a time to live; `none` when the key is there. -/
def Store.setNX (store : Store κ β) (now : ℕ) (key : κ) (value : β) (ttl : ℕ) :
    Option (Store κ β) :=
  match store.live now key with
  | some _ => none
  | none => some (Function.update store key (some ⟨value, now + ttl⟩))

/-- `EXPIRE key ttl`. -/
def Store.expire (store : Store κ β) (now : ℕ) (key : κ) (ttl : ℕ) : Store κ β :=
  match store.live now key with
  | some e => Function.update store key (some { e with till := now + ttl })
  | none => store

variable {store store' : Store κ β} {now ttl : ℕ} {key : κ} {value : β} {e : Entry β}

theorem Store.setNX_eq_some_iff : store.setNX now key value ttl = some store' ↔
    store.live now key = none ∧ store' = update store key (some ⟨value, now + ttl⟩) := by
  rw [setNX]
  cases store.live now key with
  | none => simp [eq_comm]
  | some e => simp

/-- A command on one key leaves the others alone. -/
theorem Store.live_update_of_ne {other : κ} (hne : other ≠ key) (e : Option (Entry β)) :
    Store.live (update store key e) now other = store.live now other := by
  rw [live, live, update_of_ne hne]

/-- A key that is written is there, if its time to live is not zero. -/
theorem Store.live_update_self (h : now < e.till) :
    Store.live (update store key (some e)) now key = some e :=
  live_eq_some_iff.mpr ⟨update_self key _ store, h⟩

theorem Store.expire_of_live (h : store.live now key = some e) :
    store.expire now key ttl = update store key (some { e with till := now + ttl }) := by
  rw [expire, h]

theorem Store.expire_of_not_live (h : store.live now key = none) :
    store.expire now key ttl = store := by
  rw [expire, h]

end Commands

end ExpiringStore
