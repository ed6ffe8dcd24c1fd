import Mathlib.Algebra.Group.Nat.Defs
import Chip8.Launch
import Chip8.Proofs.Forms
import Chip8.Proofs.Reset

/-!
Settings that have been found valid. A machine that is built with them is as large as they say. But
none is built if its stack or its display is larger than any host can hold, which is not looked at
when settings are validated. What the arguments of a program stand for is always valid.
-/

namespace Chip8

variable {c : Config}

theorem Config.fitsHost_iff :
    c.fitsHost = true ↔ 2 * c.stackDepth < 2 ^ 63 ∧ c.width * c.height < 2 ^ 63 := by
  rw [fitsHost, Bool.and_eq_true, decide_eq_true_eq, decide_eq_true_eq]
  rfl

/-- Calls go through up to the depth of the stack, and no further. -/
theorem CallStack.foldlM_push {s : CallStack} (h : s.entries.length ≤ s.depth)
    (as : List UInt16) :
    as.foldlM push s =
      if s.entries.length + as.length ≤ s.depth then .ok ⟨s.depth, as.reverse ++ s.entries⟩
      else .error (.stackOverflow s.depth) := by
  induction as generalizing s with
  | nil => exact (if_pos h).symm
  | cons a as ih =>
    rw [List.foldlM_cons]
    rcases s.push_cases a with ⟨hroom, hpush⟩ | ⟨hfull, hpush⟩ <;> rw [hpush]
    · have hlength : s.entries.length + 1 + as.length = s.entries.length + (as.length + 1) := by
        omega
      refine (ih (s := ⟨s.depth, a :: s.entries⟩) hroom).trans ?_
      rw [List.length_cons, List.length_cons, List.reverse_cons, List.append_assoc, hlength]
      rfl
    · rw [List.length_cons, if_neg (by omega)]
      rfl

theorem Display.row_blank {width height y : Nat} (hy : y < height) :
    (blank width height).row y = List.replicate width false := by
  have hend : y * width + width ≤ width * height := by
    have := Nat.mul_le_mul_right width (Nat.succ_le_of_lt hy)
    rwa [Nat.succ_mul, Nat.mul_comm height] at this
  rw [List.eq_replicate_iff]
  refine ⟨?_, ?_⟩
  · change ((Vector.replicate (width * height) false).extract (y * width)
      (y * width + width)).toList.length = width
    rw [Vector.length_toList]
    omega
  · intro cell hcell
    obtain ⟨i, hi, rfl⟩ := List.getElem_of_mem hcell
    simp [row, blank]

theorem Display.rows_blank (width height : Nat) :
    (blank width height).rows = List.replicate height (List.replicate width false) := by
  rw [rows, List.eq_replicate_iff]
  refine ⟨by simp [blank], ?_⟩
  intro r hr
  obtain ⟨y, hy, rfl⟩ := List.mem_map.mp hr
  exact row_blank (List.mem_range.mp hy)

namespace Machine

theorem build_of_validate (h : c.validate = .ok ()) (seed : UInt64) :
    build c seed = if c.fitsHost then .ok (powerOn c seed) else .error .unallocatable := by
  rw [build, h]

theorem loadRom_of_lt (m : Machine) {rom : List UInt8} (h : Memory.programCapacity < rom.length) :
    m.loadRom rom = .error ⟨rom.length⟩ := by
  rcases writeRom_cases rom m with ⟨-, hw⟩ | ⟨hlen, -⟩
  · rw [loadRom, hw]
  · exact absurd hlen (Nat.not_le.mpr h)

end Machine

namespace LaunchArguments

theorem keeps_windowForm :
    windowForm.Keeps fun d => rateInRange d.options.cpuHz = true where
  positional p hp text d after h hd := by
    obtain rfl := List.mem_singleton.mp hp
    dsimp only [CommandLine.nonempty] at h
    split at h <;> cases h
    exact hd
  option o ho text d after h hd := rateInRange_of_store ho h hd
  switch s hs d hd := by
    obtain rfl := List.mem_singleton.mp hs
    exact hd

theorem keeps_form : form.Keeps fun d => rateInRange d.options.cpuHz = true where
  positional := keeps_windowForm.positional
  option o ho := keeps_windowForm.option o (List.mem_append_left _ ho)
  switch := keeps_windowForm.switch

theorem validate_config {a : LaunchArguments} (h : rateInRange a.options.cpuHz = true) :
    a.config.validate = .ok () := by
  have hsize : ¬(a.config.width = 0 ∨ a.config.height = 0) := by
    rintro (h | h) <;> cases h
  have hcpu : rateInRange a.config.cpuHz = true := h
  -- No argument sets the rate of the timers.
  have htimer : rateInRange a.config.timerHz = true := (rfl : rateInRange 60 = true)
  rw [Config.validate, if_neg hsize, hcpu, htimer]
  rfl

theorem validate_of_parse {words : List String} {a : LaunchArguments}
    (h : parse words = .ok a ∨ parseWithWindow words = .ok a) : a.config.validate = .ok () := by
  have hblank : rateInRange ({} : Draft).options.cpuHz = true := rfl
  have hfinish : ∃ d : Draft, rateInRange d.options.cpuHz = true ∧
      d.romPath.map (fun path => (⟨path, d.options⟩ : LaunchArguments)) = some a := by
    rcases h with h | h
    · exact keeps_form.parse hblank h
    · exact keeps_windowForm.parse hblank h
  obtain ⟨d, hd, hpath⟩ := hfinish
  obtain ⟨path, -, rfl⟩ := Option.map_eq_some_iff.mp hpath
  exact validate_config hd

/-- Only the stack can be too large: the display of a program is of the standard size. -/
theorem fitsHost_config (a : LaunchArguments) :
    a.config.fitsHost = true ↔ 2 * a.config.stackDepth < 2 ^ 63 := by
  rw [Config.fitsHost_iff]
  exact and_iff_left (by decide : 64 * 32 < 2 ^ 63)

/-- What can go wrong between valid arguments and a running machine, given what reading the file
came to. -/
inductive Fails (a : LaunchArguments) : Except FileError (List UInt8) → LaunchError → Prop
  | unreadable (cause : FileError) : Fails a (.error cause) (.unreadable a.romPath cause)
  | unallocatable (rom : List UInt8) (deep : 2 ^ 63 ≤ 2 * a.config.stackDepth) :
      Fails a (.ok rom) (.notBuilt .unallocatable)
  | tooLarge (rom : List UInt8) (fits : 2 * a.config.stackDepth < 2 ^ 63)
      (long : 3584 < rom.length) : Fails a (.ok rom) (.notLoaded ⟨rom.length⟩)

variable {a : LaunchArguments} {rom : List UInt8} {hostSeed : UInt64}

theorem launch_of_fits (h : a.config.validate = .ok ()) (hfits : 2 * a.config.stackDepth < 2 ^ 63) :
    a.launch (.ok rom) hostSeed =
      ((Machine.powerOn a.config hostSeed).loadRom rom).mapError .notLoaded := by
  rw [launch, Machine.build_of_validate h, if_pos ((fitsHost_config a).mpr hfits)]

theorem launch_of_deep (h : a.config.validate = .ok ()) (hdeep : 2 ^ 63 ≤ 2 * a.config.stackDepth) :
    a.launch (.ok rom) hostSeed = .error (.notBuilt .unallocatable) := by
  have hfits := mt (fitsHost_config a).mp (Nat.not_lt.mpr hdeep)
  rw [launch, Machine.build_of_validate h, if_neg hfits]

theorem launch_eq_error_iff (h : a.config.validate = .ok ())
    (file : Except FileError (List UInt8)) (hostSeed : UInt64) (e : LaunchError) :
    a.launch file hostSeed = .error e ↔ a.Fails file e := by
  constructor
  · intro hlaunch
    rcases file with cause | rom
    · cases hlaunch
      exact .unreadable cause
    rcases Nat.lt_or_ge (2 * a.config.stackDepth) (2 ^ 63) with hfits | hdeep
    · rw [launch_of_fits h hfits] at hlaunch
      rcases Nat.lt_or_ge Memory.programCapacity rom.length with hlong | hlength
      · rw [Machine.loadRom_of_lt _ hlong] at hlaunch
        cases hlaunch
        exact .tooLarge rom hfits hlong
      · rw [Machine.loadRom_of_le _ hlength] at hlaunch
        cases hlaunch
    · rw [launch_of_deep h hdeep] at hlaunch
      cases hlaunch
      exact .unallocatable rom hdeep
  · rintro (cause | ⟨rom, hdeep⟩ | ⟨rom, hfits, hlong⟩)
    · rfl
    · exact launch_of_deep h hdeep
    · rw [launch_of_fits h hfits, Machine.loadRom_of_lt _ hlong]
      rfl

end LaunchArguments

/-- A machine as large as its settings say: every cell of the display is there and unlit, and as
many calls go through as the stack is deep. -/
structure Machine.SizedBy (c : Config) (m : Machine) : Prop where
  rows : m.display.rows = List.replicate c.height (List.replicate c.width false)
  push (as : List UInt16) : as.foldlM CallStack.push m.stack =
    if as.length ≤ c.stackDepth then .ok ⟨c.stackDepth, as.reverse⟩
    else .error (.stackOverflow c.stackDepth)

theorem Machine.sizedBy_powerOn (c : Config) (seed : UInt64) : (powerOn c seed).SizedBy c where
  rows := Display.rows_blank c.width c.height
  push as := by
    have h := CallStack.foldlM_push (s := CallStack.empty c.stackDepth) (Nat.zero_le _) as
    rwa [CallStack.empty, List.length_nil, Nat.zero_add, List.append_nil] at h

/-- A machine with valid settings is built, and of the size they say, just if neither its stack, at
two bytes a call, nor its display, at a byte a cell, takes half of a 64-bit address space. The
arguments of a program are valid settings; so it starts unless its file cannot be read, its stack is
too deep for any host, or its ROM is too large. -/
theorem validated_usable (c : Config) (hostSeed : UInt64) (words : List String)
    (file : Except FileError (List UInt8)) :
    (c.validate = .ok () →
      if 2 * c.stackDepth < 2 ^ 63 ∧ c.width * c.height < 2 ^ 63 then
        ∃ m, Machine.build c hostSeed = .ok m ∧ m.SizedBy c
      else Machine.build c hostSeed = .error .unallocatable) ∧
    ∀ a, LaunchArguments.parse words = .ok a ∨ LaunchArguments.parseWithWindow words = .ok a →
      a.config.validate = .ok () ∧
      ∀ e, a.launch file hostSeed = .error e ↔ a.Fails file e := by
  constructor
  · intro h
    rw [Machine.build_of_validate h]
    split <;> rename_i hsize <;> rw [← Config.fitsHost_iff] at hsize
    · exact ⟨_, if_pos hsize, Machine.sizedBy_powerOn c hostSeed⟩
    · exact if_neg hsize
  · intro a h
    have hvalid := LaunchArguments.validate_of_parse h
    exact ⟨hvalid, LaunchArguments.launch_eq_error_iff hvalid file hostSeed⟩

/-- The standard settings, and a program with four calls and one byte too many. -/
theorem validated_usable_standard :
    (∃ m, Machine.build {} 0 = .ok m ∧ m.SizedBy {}) ∧
    ∃ a, LaunchArguments.parse ["game.ch8", "--stack-depth", "4"] = .ok a ∧
      a.config.validate = .ok () ∧ a.config.stackDepth = 4 ∧
      a.launch (.ok (List.replicate 3585 0)) 0 = .error (.notLoaded ⟨3585⟩) := by
  have hlong : 3584 < (List.replicate 3585 (0 : UInt8)).length := by
    rw [List.length_replicate]
    decide
  obtain ⟨hbuilt, hlaunched⟩ := validated_usable {} 0 ["game.ch8", "--stack-depth", "4"]
    (.ok (List.replicate 3585 0))
  obtain ⟨hvalid, hfails⟩ := hlaunched _ (.inl rfl)
  have hrefused := (hfails _).mpr (.tooLarge _ (by decide) hlong)
  rw [List.length_replicate] at hrefused
  exact ⟨hbuilt rfl, _, rfl, hvalid, rfl, hrefused⟩

/-- The deepest stack that the settings can ask for, in a record and on a command line, is found
valid; but there is no machine with it. -/
theorem deepStack_not_built :
    (¬∀ (c : Config) (seed : UInt64), c.stackDepth < 2 ^ 64 → c.width < 2 ^ 64 → c.height < 2 ^ 64 →
      c.validate = .ok () → ∃ m, Machine.build c seed = .ok m) ∧
    ¬∀ (words : List String) (a : LaunchArguments), LaunchArguments.parse words = .ok a →
      ∀ (rom : List UInt8) (hostSeed : UInt64), rom.length ≤ 3584 →
        ∃ m, a.launch (.ok rom) hostSeed = .ok m := by
  constructor
  · intro h
    obtain ⟨m, hm⟩ := h { stackDepth := 18446744073709551615 } 0 (by decide) (by decide) (by decide)
      rfl
    cases hm
  · intro h
    obtain ⟨m, hm⟩ := h ["game.ch8", "--stack-depth", "18446744073709551615"] _ rfl [] 0
      (by decide)
    cases hm

end Chip8
