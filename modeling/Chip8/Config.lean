/-!
Settings of a machine and of the hosts that drive it.
-/

namespace Chip8

/-- What to do with a word outside the instruction set. -/
inductive UnknownPolicy where
  | fault
  | ignore
  deriving DecidableEq, Repr

structure Config where
  /-- The deepest nesting of calls. -/
  stackDepth : Nat := 16
  unknownOpcodes : UnknownPolicy := .fault
  width : Nat := 64
  height : Nat := 32
  /-- Instructions a second. -/
  cpuHz : Float32 := 700
  /-- Timer ticks a second. -/
  timerHz : Float32 := 60
  /-- Without a seed the random bytes are the host's choice. -/
  seed : Option UInt64 := none

inductive ConfigError where
  | emptyDisplay
  | cpuRate
  | timerRate
  deriving DecidableEq, Repr

def ConfigError.message : ConfigError → String
  | emptyDisplay => "Invalid configuration: display must be at least 1x1"
  | cpuRate => "Invalid configuration: cpu_hz out of range"
  | timerRate => "Invalid configuration: timer_hz out of range"

/-- The slowest and the fastest rate, in hertz. -/
def rateMin : Float32 := 0.01

def rateMax : Float32 := 1000000

/-- The rates a host can keep, which no NaN is among. -/
def rateInRange (hz : Float32) : Bool := rateMin ≤ hz && hz ≤ rateMax

namespace Config

def validate (c : Config) : Except ConfigError Unit :=
  if c.width = 0 ∨ c.height = 0 then .error .emptyDisplay
  else if !rateInRange c.cpuHz then .error .cpuRate
  else if !rateInRange c.timerHz then .error .timerRate
  else .ok ()

/-- The two-byte stack entries and the one-byte display cells each fill less than half of a
64-bit address space. No host can hold more. -/
def fitsHost (c : Config) : Bool :=
  2 * c.stackDepth < UInt64.size / 2 && c.width * c.height < UInt64.size / 2

theorem size_pos_of_validate {c : Config} (h : c.validate = .ok ()) :
    0 < c.width ∧ 0 < c.height := by
  unfold validate at h
  split at h
  · cases h
  · rename_i hempty
    obtain ⟨hw, hh⟩ := not_or.mp hempty
    exact ⟨Nat.pos_of_ne_zero hw, Nat.pos_of_ne_zero hh⟩

theorem rates_of_validate {c : Config} (h : c.validate = .ok ()) :
    rateInRange c.cpuHz = true ∧ rateInRange c.timerHz = true := by
  unfold validate at h
  split at h
  · cases h
  · split at h
    · cases h
    · rename_i hcpu
      split at h
      · cases h
      · rename_i htimer
        exact ⟨by simpa using hcpu, by simpa using htimer⟩

theorem area_lt_of_fitsHost {c : Config} (h : c.fitsHost = true) :
    c.width * c.height < UInt64.size / 2 := by
  unfold fitsHost at h
  rw [Bool.and_eq_true, decide_eq_true_eq, decide_eq_true_eq] at h
  exact h.2

end Config

end Chip8
