import Chip8.Proofs.Periods
import Chip8.Proofs.Spending

/-!
Whether a call comes to an end. Each loop takes a period off its backlog, and it comes to an end
just if no pass leaves the backlog as it was. That holds as long as the backlog is at most `2 ^ 24`
periods, which 16 seconds never exceed. From `2 ^ 25` periods on a period is lost in the rounding.
Then no call returns if the periods are the timer's, and if they are those of the instructions, it
returns only if a step ends it.
-/

namespace Chip8.Runner

open Single Rounding
open Machine (Step)

/-- The backlogs that a loop comes to, taking off one period after another. -/
inductive Meets (period : Float32) : Float32 → Float32 → Prop
  | here {backlog : Float32} : Meets period backlog backlog
  | pass {backlog rest : Float32} (h : period ≤ backlog)
      (hrest : Meets period (backlog - period) rest) : Meets period backlog rest

/-- Every pass of a loop makes the backlog smaller. -/
def Shrinks (period backlog : Float32) : Prop :=
  ∀ rest, Meets period backlog rest → period ≤ rest → rest - period < rest

variable {period backlog rest dt : Float32} {p b : Nat} {stops : Option Breakpoints}
  {m : Machine} {s : Step} {spent : Spent} {met : List Machine} {r : Runner}

theorem Shrinks.pass (h : Shrinks period backlog) (hle : period ≤ backlog) :
    Shrinks period (backlog - period) :=
  fun rest hrest => h rest (.pass hle hrest)

theorem shrinks_of_not_le (h : ¬period ≤ backlog) : Shrinks period backlog := by
  intro rest hrest hle
  cases hrest with
  | here => exact absurd hle h
  | pass hle' => exact absurd hle' h

/-- A pass that leaves the backlog as it was is followed by another one that does. -/
theorem shrinks_of_pass (hp : Amounts period p) (hb : Amounts backlog b) (hle : period ≤ backlog)
    (h : Shrinks period (backlog - period)) : Shrinks period backlog := by
  intro rest hrest hle'
  cases hrest with
  | pass _ hrest => exact h rest hrest hle'
  | here =>
    have hpb := (hp.le_iff hb).mp hle
    have hsub := hb.sub hp hle
    rw [hsub.lt_iff hb]
    rcases Nat.lt_or_eq_of_le (nearest_le hb.short (Nat.sub_le b p)) with hlt | heq
    · exact hlt
    · have hstays : period ≤ backlog - period := (hp.le_iff hsub).mpr (by omega)
      have hnext := h _ .here hstays
      rw [(hsub.sub hp hstays).lt_iff hsub, heq, heq] at hnext
      exact absurd hnext (Nat.lt_irrefl b)

/-- The ticks of a call come to an end just if no pass is lost in the rounding. -/
theorem exists_elapses_iff (hp : Amounts period p) (hb : Amounts backlog b) :
    (∃ ticks left, Elapses period backlog ticks left) ↔ Shrinks period backlog := by
  constructor
  · rintro ⟨ticks, left, h⟩
    induction h generalizing b with
    | done hle => exact shrinks_of_not_le hle
    | tick hle _ ih => exact shrinks_of_pass hp hb hle (ih (hb.sub hp hle))
  · intro h
    -- On the units of the backlog, of which every pass that shrinks it leaves fewer.
    induction b using Nat.strongRecOn generalizing backlog with
    | ind b ih =>
      by_cases hle : period ≤ backlog
      · have hsub := hb.sub hp hle
        obtain ⟨ticks, left, helapses⟩ :=
          ih _ ((hsub.lt_iff hb).mp (h _ .here hle)) hsub (h.pass hle)
        exact ⟨_, left, .tick hle helapses⟩
      · exact ⟨0, backlog, .done hle⟩

theorem exists_ends_of_not_goesOn (h : ¬GoesOn stops s) (backlog : Float32) :
    ∃ result left, Ends stops s backlog result left := by
  cases hs : s.result with
  | error e => exact ⟨_, _, .failed hs⟩
  | ok o =>
    cases hb : stopsAt stops s.machine.pc with
    | true => exact ⟨_, _, .stopped hs hb⟩
    | false =>
      cases o with
      | advanced => exact absurd ⟨hs, hb⟩ h
      | drew => exact ⟨_, _, .drew hs hb⟩
      | waiting x => exact ⟨_, _, .waits hs hb⟩

theorem exists_spends_of_shrinks (hp : Amounts period p) (hb : Amounts backlog b)
    (h : Shrinks period backlog) (stops : Option Breakpoints) (m : Machine) :
    ∃ met spent, Spends period stops backlog m met spent := by
  induction b using Nat.strongRecOn generalizing backlog m with
  | ind b ih =>
    by_cases hle : period ≤ backlog
    · by_cases hs : GoesOn stops m.step
      · have hsub := hb.sub hp hle
        obtain ⟨met, spent, hspends⟩ :=
          ih _ ((hsub.lt_iff hb).mp (h _ .here hle)) hsub (h.pass hle) m.step.machine
        exact ⟨_, spent, .goesOn hle hs hspends⟩
      · obtain ⟨result, left, hends⟩ := exists_ends_of_not_goesOn hs (backlog - period)
        exact ⟨_, _, .last hle hends⟩
    · exact ⟨[], _, .timeUp hle⟩

/-- A loop that does not come to an end by itself makes every step up to one that ends it. -/
theorem exists_spends_of_stop (hp : Amounts period p) (hb : Amounts backlog b)
    (h : ¬Shrinks period backlog) {n : Nat} (hs : s ∈ m.steps n) (hstop : ¬GoesOn stops s) :
    ∃ met spent, Spends period stops backlog m met spent := by
  induction n generalizing backlog b m with
  | zero => cases hs
  | succ n ih =>
    have hle : period ≤ backlog := Decidable.byContradiction fun hle => h (shrinks_of_not_le hle)
    have hsub := hb.sub hp hle
    by_cases hfirst : GoesOn stops m.step
    · rw [Machine.steps, hfirst.1] at hs
      rcases List.mem_cons.mp hs with rfl | hs
      · exact absurd hfirst hstop
      · obtain ⟨met, spent, hspends⟩ := ih hsub (mt (shrinks_of_pass hp hb hle) h) hs
        exact ⟨_, spent, .goesOn hle hfirst hspends⟩
    · obtain ⟨result, left, hends⟩ := exists_ends_of_not_goesOn hfirst (backlog - period)
      exact ⟨_, _, .last hle hends⟩

theorem Spends.shrinks_or_stop (hp : Amounts period p) (hb : Amounts backlog b)
    (h : Spends period stops backlog m met spent) :
    Shrinks period backlog ∨ ∃ n, ∃ s ∈ m.steps n, ¬GoesOn stops s := by
  induction h generalizing b with
  | timeUp hle => exact .inl (shrinks_of_not_le hle)
  | last _ he =>
    refine .inr ⟨1, _, ?_, fun hs => hs.not_ends he⟩
    rw [Machine.steps]
    split <;> exact List.mem_cons_self
  | goesOn hle hs _ ih =>
    rcases ih (hb.sub hp hle) with hshrinks | ⟨n, s, hmem, hstop⟩
    · exact .inl (shrinks_of_pass hp hb hle hshrinks)
    · refine .inr ⟨n + 1, s, ?_, hstop⟩
      rw [Machine.steps, hs.1]
      exact List.mem_cons_of_mem _ hmem

theorem exists_spends_iff (hp : Amounts period p) (hb : Amounts backlog b) :
    (∃ met spent, Spends period stops backlog m met spent) ↔
      Shrinks period backlog ∨ ∃ n, ∃ s ∈ m.steps n, ¬GoesOn stops s := by
  constructor
  · rintro ⟨met, spent, h⟩
    exact h.shrinks_or_stop hp hb
  · rintro (h | ⟨n, s, hmem, hstop⟩)
    · exact exists_spends_of_shrinks hp hb h stops m
    · by_cases h : Shrinks period backlog
      · exact exists_spends_of_shrinks hp hb h stops m
      · exact exists_spends_of_stop hp hb h hmem hstop

theorem returns_iff (stops : Option Breakpoints) (hp : Amounts r.cpuPeriod p)
    (hb : Amounts (r.cpuBacklog + dt) b) :
    (∃ fuel call, r.updateUntil fuel dt stops = some call) ↔
      ∃ ticks left, Elapses r.timerPeriod (r.timerBacklog + dt) ticks left ∧
        (Shrinks r.cpuPeriod (r.cpuBacklog + dt) ∨
          ∃ n, ∃ s ∈ (r.machine.tickN ticks).steps n, ¬GoesOn stops s) := by
  constructor
  · rintro ⟨fuel, ⟨result, after⟩, h⟩
    obtain ⟨ticks, met, hupdates⟩ := updates_of_updateUntil h
    exact ⟨ticks, _, hupdates.elapses, hupdates.spends.shrinks_or_stop hp hb⟩
  · rintro ⟨ticks, left, helapses, hends⟩
    obtain ⟨met, ⟨result, cpuBacklog, machine⟩, hspends⟩ := (exists_spends_iff hp hb).mpr hends
    have hupdates : Updates r dt stops ticks met result
        { r with machine, cpuBacklog, timerBacklog := left } := ⟨helapses, hspends, rfl, rfl⟩
    obtain ⟨fuel, h⟩ := exists_updateUntil_iff.mpr ⟨ticks, met, hupdates⟩
    exact ⟨fuel, _, h⟩

theorem Meets.exists_amounts (hp : Amounts period p) (hb : Amounts backlog b)
    (h : Meets period backlog rest) : ∃ n ≤ b, Amounts rest n := by
  induction h generalizing b with
  | here => exact ⟨b, Nat.le_refl b, hb⟩
  | pass hle _ ih =>
    have hsub := hb.sub hp hle
    obtain ⟨n, hn, hrest⟩ := ih hsub
    exact ⟨n, Nat.le_trans hn (nearest_le hb.short (Nat.sub_le b p)), hrest⟩

theorem shrinks_of_le (hp : Amounts period p) (hpos : 0 < p) (hb : Amounts backlog b)
    (h : b ≤ 2 ^ 24 * p) : Shrinks period backlog := by
  intro rest hrest hle
  obtain ⟨n, hn, hamounts⟩ := hrest.exists_amounts hp hb
  have hpn := (hp.le_iff hamounts).mp hle
  rw [(hamounts.sub hp hle).lt_iff hamounts]
  exact nearest_sub_lt hamounts.short hpos hpn (Nat.le_trans hn h)

theorem not_shrinks_of_le (hp : Amounts period p) (hb : Amounts backlog b)
    (h : 2 ^ 25 * p ≤ b) : ¬Shrinks period backlog := by
  intro hshrinks
  have hle : period ≤ backlog := (hp.le_iff hb).mpr (by omega)
  have hlt := hshrinks _ .here hle
  rw [(hb.sub hp hle).lt_iff hb, nearest_sub_eq hb.short h] at hlt
  exact absurd hlt (Nat.lt_irrefl b)

theorem amounts_sixteen : Amounts 16 (2 ^ 23 * 2 ^ 130) := by
  have h : (16 : Float32).toModel.unpack =
      .finite .positive (2 ^ 23) ((130 : Nat) - 149) (by decide) := rfl
  rw [Amounts, h]
  exact .finite _ (by decide) (.inr (by decide))

/-- A call of a fresh runner returns just if its ticks come to an end, and either every pass of the
instruction loop makes the backlog smaller or a step ends the call. The ticks come to an end just if
every pass of their loop makes the backlog smaller. Up to `2 ^ 24` periods every pass does, from
`2 ^ 25` on the first one does not. Every call for up to 16 seconds returns. -/
theorem returns_iff_shrinks (hvalid : m.config.validate = .ok ()) (hfin : dt.isFinite = true)
    (hdt : 0 ≤ dt) (stops : Option Breakpoints) :
    let cpuPeriod := (start m).cpuPeriod
    let timerPeriod := (start m).timerPeriod
    ((∃ fuel call, (start m).updateUntil fuel dt stops = some call) ↔
      ∃ ticks left, Elapses timerPeriod (0 + dt) ticks left ∧
        (Shrinks cpuPeriod (0 + dt) ∨ ∃ n, ∃ s ∈ (m.tickN ticks).steps n, ¬GoesOn stops s)) ∧
    ((∃ ticks left, Elapses timerPeriod (0 + dt) ticks left) ↔ Shrinks timerPeriod (0 + dt)) ∧
    (∀ period, period = cpuPeriod ∨ period = timerPeriod →
      (grains dt ≤ 2 ^ 24 * grains period → Shrinks period (0 + dt)) ∧
      (2 ^ 25 * grains period ≤ grains dt → ¬Shrinks period (0 + dt))) ∧
    (dt ≤ 16 → ∃ fuel call, (start m).updateUntil fuel dt stops = some call) := by
  intro cpuPeriod timerPeriod
  obtain ⟨hcpuRate, htimerRate⟩ := Config.rates_of_validate hvalid
  obtain ⟨p, hp, hlarge⟩ := exists_amounts_period hcpuRate
  obtain ⟨p', hp', hlarge'⟩ := exists_amounts_period htimerRate
  change Amounts cpuPeriod p at hp
  change Amounts timerPeriod p' at hp'
  have hb := (amounts_grains hfin hdt).zero_add
  have hreturns := returns_iff (r := start m) stops hp hb
  refine ⟨hreturns, exists_elapses_iff hp' hb, ?_, fun hle => ?_⟩
  · rintro period (rfl | rfl)
    · rw [hp.grains_eq]
      exact ⟨shrinks_of_le hp (by omega) hb, not_shrinks_of_le hp hb⟩
    · rw [hp'.grains_eq]
      exact ⟨shrinks_of_le hp' (by omega) hb, not_shrinks_of_le hp' hb⟩
  · have hlimit := ((amounts_grains hfin hdt).le_iff amounts_sixteen).mp hle
    obtain ⟨ticks, left, helapses⟩ :=
      (exists_elapses_iff hp' hb).mpr (shrinks_of_le hp' (by omega) hb (by omega))
    exact hreturns.mpr ⟨ticks, left, helapses,
      .inl (shrinks_of_le hp (by omega) hb (by omega))⟩

/-- The fastest machine, with a program that does nothing but jump to itself. -/
def spinning : Machine := (Machine.powerOn { cpuHz := 1000000 } 0).act (.loadRom [0x12, 0x00])

/-- It returns from 16 seconds, of some sixteen million steps. -/
theorem returns_iff_shrinks_spinning :
    ∃ fuel call, (start spinning).updateUntil fuel 16 none = some call :=
  (returns_iff_shrinks (m := spinning) rfl (by decide +kernel) (by decide +kernel) none).2.2.2
    (by decide +kernel)

theorem step_spinning : spinning.step = ⟨.ok .advanced, spinning⟩ := by
  have hword : spinning.nextWord = .ok 0x1200 := by decide +kernel
  have hnext : Execution.next spinning = .ok .advanced spinning := by
    rw [Execution.next_apply, hword]
    rfl
  exact Machine.step_of_next rfl rfl hnext

theorem tickN_spinning (n : Nat) : spinning.tickN n = spinning := by
  induction n with
  | zero => rfl
  | succ n ih => exact ih

theorem spend_spinning (fuel : Nat) :
    spend (start spinning).cpuPeriod none fuel 64 spinning = none := by
  have hle : (start spinning).cpuPeriod ≤ 64 := by decide +kernel
  have hstays : 64 - (start spinning).cpuPeriod = 64 := by decide +kernel
  induction fuel with
  | zero => rfl
  | succ fuel ih =>
    rw [spend, if_pos hle, step_spinning, hstays]
    exact ih

/-- After 64 seconds a period is lost in the rounding, and it never returns. -/
theorem spinning_never_returns :
    spinning.Reachable { cpuHz := 1000000 } ∧ (64 : Float32).isFinite = true ∧ (0 : Float32) ≤ 64 ∧
      ∀ fuel, (start spinning).updateUntil fuel 64 none = none := by
  have hbuild : Machine.build { cpuHz := 1000000 } 0 =
      .ok (Machine.powerOn { cpuHz := 1000000 } 0) := rfl
  refine ⟨.act (.build hbuild) _, by decide +kernel, by decide +kernel, fun fuel => ?_⟩
  have hbacklog : (start spinning).cpuBacklog + 64 = 64 := by decide +kernel
  cases h : (start spinning).updateUntil fuel 64 none with
  | none => rfl
  | some call =>
    obtain ⟨ticks, met, hupdates⟩ := updates_of_updateUntil h
    have hspends := hupdates.spends.spend_eq (Nat.lt_succ_self _)
    change spend _ none _ _ (spinning.tickN ticks) = _ at hspends
    rw [hbacklog, tickN_spinning, spend_spinning] at hspends
    cases hspends

end Chip8.Runner
