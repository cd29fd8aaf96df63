import CrawlBoard.Time.Calendar
/-!
Instants of UTC with nanoseconds. A leap second is the last second of its minute with a
nanosecond count of 1000000000 or more.
-/

namespace CrawlBoard

def Instant.first : Int := -8334601228800

def Instant.last : Int := 8210266876799

structure Instant where
  seconds : Int
  nanos : Nat
  after_first : Instant.first ≤ seconds
  before_last : seconds ≤ Instant.last
  nanos_bound : nanos < 1000000000 ∨ (nanos < 2000000000 ∧ seconds % 60 = 59)
  deriving DecidableEq, Repr

namespace Instant

def ofUnix? (seconds : Int) (nanos : Nat) : Option Instant :=
  if h : first ≤ seconds ∧ seconds ≤ last ∧
      (nanos < 1000000000 ∨ (nanos < 2000000000 ∧ seconds % 60 = 59)) then
    some ⟨seconds, nanos, h.1, h.2.1, h.2.2⟩
  else none

def date (instant : Instant) : Date := Date.ofDays (instant.seconds / 86400)

def secondOfDay (instant : Instant) : Nat := (instant.seconds % 86400).toNat

def hour (instant : Instant) : Nat := instant.secondOfDay / 3600

def minute (instant : Instant) : Nat := instant.secondOfDay / 60 % 60

/-- Up to 60: a leap second is counted after the one it extends. -/
def second (instant : Instant) : Nat :=
  instant.secondOfDay % 60 + instant.nanos / 1000000000

def fraction (instant : Instant) : Nat := instant.nanos % 1000000000

end Instant

end CrawlBoard
