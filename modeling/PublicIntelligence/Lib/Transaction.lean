namespace PublicIntelligence

/-- How a statement and the commit after it end: they take effect; the statement raises and
writes nothing; the commit raises and leaves the transaction open, or has it rolled back; the
process dies before the commit, or just after it. -/
inductive Landing where
  | committed
  | refused
  | unfinished
  | rolledBack
  | diedBefore
  | diedAfter
deriving DecidableEq

/-- The write is in the file. -/
def Landing.lands : Landing → Bool
  | .committed | .diedAfter => true
  | _ => false

def Landing.dies : Landing → Bool
  | .diedBefore | .diedAfter => true
  | _ => false

/-- A database file, and the same with what the open transaction of its one connection adds. -/
structure Connection (δ : Type) where
  committed : δ
  working : δ

namespace Connection

/-- A connection on a file, with no transaction open. -/
def opened (d : δ) : Connection δ := ⟨d, d⟩

/-- Dying, or closing, loses the open transaction. -/
def reopen (c : Connection δ) : Connection δ := opened c.committed

def write (c : Connection δ) (f : δ → δ) : Landing → Connection δ
  | .committed | .diedAfter => opened (f c.working)
  | .refused => c
  | .unfinished => ⟨c.committed, f c.working⟩
  | .rolledBack | .diedBefore => c.reopen

theorem write_of_lands {c : Connection δ} (f : δ → δ) (h : landing.lands) :
    c.write f landing = opened (f c.working) := by
  cases landing <;> first | rfl | cases h

/-- A write that does not land leaves the file alone. -/
theorem write_of_not_lands {c : Connection δ} (f : δ → δ) (h : ¬ landing.lands) :
    (c.write f landing).committed = c.committed := by
  cases landing with
  | committed => exact absurd rfl h
  | diedAfter => exact absurd rfl h
  | _ => rfl

/-- What the transaction is to the file, whatever becomes of a write. -/
theorem write_related {R : δ → δ → Prop} {c : Connection δ} {f : δ → δ} (landing : Landing)
    (hrefl : ∀ d, R d d) (hwrite : R c.committed (f c.working)) (h : R c.committed c.working) :
    R (c.write f landing).committed (c.write f landing).working := by
  cases landing with
  | refused => exact h
  | unfinished => exact hwrite
  | _ => exact hrefl _

/-- The file holds what it held, or what was written. -/
theorem write_committed {P : δ → Prop} {c : Connection δ} {f : δ → δ} (landing : Landing)
    (hwrite : P (f c.working)) (h : P c.committed) : P (c.write f landing).committed := by
  cases landing with
  | committed => exact hwrite
  | diedAfter => exact hwrite
  | _ => exact h

/-- The transaction holds what it held, what was written, or what the file holds. -/
theorem write_working {P : δ → Prop} {c : Connection δ} {f : δ → δ} (landing : Landing)
    (hwrite : P (f c.working)) (h : P c.working) (hfile : P c.committed) :
    P (c.write f landing).working := by
  cases landing with
  | refused => exact h
  | rolledBack => exact hfile
  | diedBefore => exact hfile
  | _ => exact hwrite

end Connection
end PublicIntelligence
