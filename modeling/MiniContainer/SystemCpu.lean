import MiniContainer.CpuAccounting

/-!
# The processor time of the host

`getSystemCPUPercent` reads the first line of `/proc/stat`, adds up the times in
it, and compares them with those of the call before, which it keeps in static
variables: what was not idle of the time that has passed is the percentage. The
differences are taken in `unsigned long`.

The kernel lets one of the times decrease, `iowait`, and that is a part of the
idle time. `percent_in_range_iff` says of every sequence of readings that all
percentages lie between 0 and 100 exactly if the idle time decreases between no
two of them while the whole time increases.
-/

open CText

/-- The times in the first line of `/proc/stat`. -/
structure CpuTimes where
  user : ℕ
  nice : ℕ
  system : ℕ
  idle : ℕ
  iowait : ℕ
  irq : ℕ
  softirq : ℕ
  steal : ℕ
  deriving DecidableEq, Repr

namespace CpuTimes

/-- All the time there was. -/
def sum (t : CpuTimes) : ℕ :=
  t.user + t.nice + t.system + t.idle + t.iowait + t.irq + t.softirq + t.steal

/-- The time in which nothing was done. -/
def idleSum (t : CpuTimes) : ℕ := t.idle + t.iowait

/-- `total`, an `unsigned long`. -/
def total (t : CpuTimes) : ℕ := t.sum % 2 ^ 64

/-- `total_idle`. -/
def totalIdle (t : CpuTimes) : ℕ := t.idleSum % 2 ^ 64

end CpuTimes

/-- `iss >> value` for an `unsigned long`; `none` where the stream fails. -/
def extractUnsigned (s : CStr) : Option (ℕ × CStr) :=
  (readDecimal s).bind fun r =>
    if r.1.natAbs < 2 ^ 64 then some ((r.1 % 2 ^ 64).toNat, r.2) else none

/-- `iss >> label`: what is left behind a word. -/
def skipWord (s : CStr) : CStr := (s.dropWhile isSpace).dropWhile (fun c => !isSpace c)

/-- `iss >> cpu_label >> user >> … >> steal`; `none` where the stream fails, which
leaves some of the variables without a value. -/
def readCpuTimes (line : CStr) : Option CpuTimes :=
  (extractUnsigned (skipWord line)).bind fun user =>
  (extractUnsigned user.2).bind fun nice =>
  (extractUnsigned nice.2).bind fun system =>
  (extractUnsigned system.2).bind fun idle =>
  (extractUnsigned idle.2).bind fun iowait =>
  (extractUnsigned iowait.2).bind fun irq =>
  (extractUnsigned irq.2).bind fun softirq =>
  (extractUnsigned softirq.2).map fun steal =>
  ⟨user.1, nice.1, system.1, idle.1, iowait.1, irq.1, softirq.1, steal.1⟩

/-- `prev_idle` and `prev_total`. -/
structure CpuStatics where
  prevIdle : ℕ
  prevTotal : ℕ
  deriving DecidableEq, Repr

/-- Before the first call. -/
def CpuStatics.init : CpuStatics := ⟨0, 0⟩

/-- What is kept of a reading for the next call. -/
def CpuTimes.statics (t : CpuTimes) : CpuStatics := ⟨t.totalIdle, t.total⟩

/-- The percentage, computed exactly. -/
def cpuPercent (s : CpuStatics) (t : CpuTimes) : ℚ :=
  if s.prevTotal > 0 then
    let totalDiff := subUnsigned t.total s.prevTotal
    let idleDiff := subUnsigned t.totalIdle s.prevIdle
    if totalDiff > 0 then 100 * (1 - (idleDiff : ℚ) / totalDiff) else 0
  else 0

/-- **`getSystemCPUPercent`**, given what is in `/proc/stat`, or that it cannot be
opened. The result is `none` where a variable without a value is used. -/
def getSystemCPUPercent (stat : Option CStr) (s : CpuStatics) : Option (CpuStatics × ℚ) :=
  match stat with
  | none => some (s, 0)
  | some text =>
    let line := text.takeWhile (· ≠ '\n')
    if text ≠ [] ∧ "cpu ".toList <+: line then
      (readCpuTimes line).map (fun t => (t.statics, cpuPercent s t))
    else some (s, 0)

/-- The percentages successive calls return. -/
def getSystemCPUPercents : List (Option CStr) → CpuStatics → Option (List ℚ)
  | [], _ => some []
  | stat :: stats, s =>
    (getSystemCPUPercent stat s).bind fun r =>
      (getSystemCPUPercents stats r.1).map (fun percents => r.2 :: percents)

/-! ## What the kernel shows -/

/-- The first line of `/proc/stat`, and what is behind the times in it. -/
def CpuTimes.shown (t : CpuTimes) (rest : CStr) : CStr :=
  "cpu  ".toList ++ (printDecimal t.user ++ ' ' :: (printDecimal t.nice ++ ' ' ::
    (printDecimal t.system ++ ' ' :: (printDecimal t.idle ++ ' ' :: (printDecimal t.iowait ++
    ' ' :: (printDecimal t.irq ++ ' ' :: (printDecimal t.softirq ++ ' ' ::
    (printDecimal t.steal ++ rest))))))))

/-- **A time is read back**, with a blank in front of it. -/
theorem extractUnsigned_printDecimal {n : ℕ} (hn : n < 2 ^ 64) {s : CStr} (hs : NotDigit s) :
    extractUnsigned (' ' :: (printDecimal n ++ s)) = some (n, s) := by
  have hread : readDecimal (' ' :: (printDecimal n ++ s)) = readDecimal (printDecimal n ++ s) := by
    unfold readDecimal
    rw [List.dropWhile_cons_of_pos (by decide)]
  unfold extractUnsigned
  rw [hread, readDecimal_printDecimal _ hs, Option.bind_some, if_pos (by omega)]
  dsimp only
  rw [Int.emod_eq_of_lt (by omega) (by omega), Int.toNat_natCast]

theorem notDigit_cons {c : Char} (hc : c.isDigit = false) (s : CStr) : NotDigit (c :: s) := by
  rintro d hd
  cases hd
  exact hc

/-- **The times that are shown are read.** -/
theorem readCpuTimes_shown {t : CpuTimes} (ht : t.sum < 2 ^ 64) {rest : CStr}
    (hrest : NotDigit rest) : readCpuTimes (t.shown rest) = some t := by
  unfold CpuTimes.sum at ht
  have hblank : ∀ s, NotDigit (' ' :: s) := notDigit_cons (by decide)
  have hlabel : ∀ s, skipWord ("cpu  ".toList ++ s) = ' ' :: ' ' :: s := fun s => rfl
  have htwo : ∀ s, extractUnsigned (' ' :: ' ' :: s) = extractUnsigned (' ' :: s) := by
    intro s
    unfold extractUnsigned readDecimal
    rw [List.dropWhile_cons_of_pos (by decide)]
  unfold readCpuTimes CpuTimes.shown
  rw [hlabel, htwo]
  rw [extractUnsigned_printDecimal (by omega) (hblank _), Option.bind_some,
    extractUnsigned_printDecimal (by omega) (hblank _), Option.bind_some,
    extractUnsigned_printDecimal (by omega) (hblank _), Option.bind_some,
    extractUnsigned_printDecimal (by omega) (hblank _), Option.bind_some,
    extractUnsigned_printDecimal (by omega) (hblank _), Option.bind_some,
    extractUnsigned_printDecimal (by omega) (hblank _), Option.bind_some,
    extractUnsigned_printDecimal (by omega) (hblank _), Option.bind_some,
    extractUnsigned_printDecimal (by omega) hrest, Option.map_some]

/-- **A call that reads what the kernel shows.** -/
theorem getSystemCPUPercent_shown {t : CpuTimes} (ht : t.sum < 2 ^ 64) {more file : CStr}
    (hmore : NotDigit more) (hline : '\n' ∉ more) (s : CpuStatics) :
    getSystemCPUPercent (some (t.shown more ++ '\n' :: file)) s
      = some (t.statics, cpuPercent s t) := by
  have hnumeral : ∀ n : ℕ, '\n' ∉ printDecimal n :=
    fun n => not_mem_printDecimal (by decide) (by decide) n
  have hshown : '\n' ∉ t.shown more := by
    simp [CpuTimes.shown, hnumeral, hline]
  unfold getSystemCPUPercent
  dsimp only
  rw [takeWhile_ne_append hshown, readCpuTimes_shown ht hmore]
  refine if_pos ⟨by simp, ?_⟩
  exact ⟨' ' :: _, rfl⟩

/-! ## Percentages -/

/-- A part of a whole as a percentage of what is left. -/
theorem percent_mem_iff {part whole : ℕ} (hwhole : 0 < whole) :
    (0 ≤ 100 * (1 - (part : ℚ) / whole) ∧ 100 * (1 - (part : ℚ) / whole) ≤ 100) ↔
      part ≤ whole := by
  have hpos : (0 : ℚ) < whole := Nat.cast_pos.mpr hwhole
  have hratio : (0 : ℚ) ≤ part / whole := div_nonneg (Nat.cast_nonneg _) hpos.le
  rw [and_iff_left (by linarith), ← Nat.cast_le (α := ℚ), ← div_le_one hpos]
  constructor <;> intro h <;> linarith

/-- **Times grow**, all but one. -/
structure CpuTimes.Grows (t t' : CpuTimes) : Prop where
  user : t.user ≤ t'.user
  nice : t.nice ≤ t'.nice
  system : t.system ≤ t'.system
  idle : t.idle ≤ t'.idle
  irq : t.irq ≤ t'.irq
  softirq : t.softirq ≤ t'.softirq
  steal : t.steal ≤ t'.steal

/-- **The idle time does not decrease while the whole time increases.** -/
def CpuTimes.IdleGrows (t t' : CpuTimes) : Prop := t.idleSum ≤ t'.idleSum ∨ t'.sum ≤ t.sum

instance (t t' : CpuTimes) : Decidable (t.IdleGrows t') := inferInstanceAs (Decidable (_ ∨ _))

/-- **One percentage**, after a reading. -/
theorem cpuPercent_mem_iff {t t' : CpuTimes} (ht : t.sum < 2 ^ 64) (ht' : t'.sum < 2 ^ 64)
    (hgrows : t.Grows t') :
    (0 ≤ cpuPercent t.statics t' ∧ cpuPercent t.statics t' ≤ 100) ↔ t.IdleGrows t' := by
  obtain ⟨huser, hnice, hsystem, hidle, hirq, hsoftirq, hsteal⟩ := hgrows
  -- the time that is not idle does not decrease
  have hbusy : t.sum + t'.idleSum ≤ t'.sum + t.idleSum := by
    unfold CpuTimes.sum CpuTimes.idleSum
    omega
  have hle : t.idleSum ≤ t.sum := by
    unfold CpuTimes.sum CpuTimes.idleSum
    omega
  have hle' : t'.idleSum ≤ t'.sum := by
    unfold CpuTimes.sum CpuTimes.idleSum
    omega
  unfold cpuPercent CpuTimes.statics CpuTimes.IdleGrows CpuTimes.total CpuTimes.totalIdle
  dsimp only
  rw [Nat.mod_eq_of_lt ht, Nat.mod_eq_of_lt ht', Nat.mod_eq_of_lt (by omega),
    Nat.mod_eq_of_lt (by omega)]
  generalize t.sum = total, t'.sum = total', t.idleSum = idle, t'.idleSum = idle' at *
  by_cases hprev : total > 0
  · rw [if_pos hprev]
    by_cases hdiff : subUnsigned total' total > 0
    · rw [if_pos hdiff, percent_mem_iff hdiff]
      unfold subUnsigned at hdiff ⊢
      omega
    · rw [if_neg hdiff]
      refine iff_of_true (by norm_num) (Or.inr ?_)
      unfold subUnsigned at hdiff
      omega
  · rw [if_neg hprev]
    exact iff_of_true (by norm_num) (Or.inl (by omega))

/-! ## Sequences of readings -/

/-- **A text shows times**, as `/proc/stat` does. -/
def Shows (text : CStr) (t : CpuTimes) : Prop :=
  ∃ more file, NotDigit more ∧ '\n' ∉ more ∧ text = t.shown more ++ '\n' :: file

/-- The first call of a process finds nothing kept. -/
theorem cpuPercent_init (t : CpuTimes) : cpuPercent .init t = 0 := rfl

/-- **What calls return after a reading.** -/
theorem getSystemCPUPercents_mem_iff {texts : List CStr} {readings : List CpuTimes}
    (hshows : List.Forall₂ Shows texts readings) {t : CpuTimes} (ht : t.sum < 2 ^ 64)
    (hgrows : (t :: readings).IsChain CpuTimes.Grows) (hlt : ∀ t ∈ readings, t.sum < 2 ^ 64) :
    ∃ percents, getSystemCPUPercents (texts.map some) t.statics = some percents ∧
      ((∀ p ∈ percents, 0 ≤ p ∧ p ≤ 100) ↔ (t :: readings).IsChain CpuTimes.IdleGrows) := by
  induction hshows generalizing t with
  | nil => exact ⟨[], rfl, by simp⟩
  | @cons text t' texts readings htext _ ih =>
    obtain ⟨hgrow, hgrows⟩ := List.isChain_cons_cons.mp hgrows
    obtain ⟨ht', hlt⟩ := List.forall_mem_cons.mp hlt
    obtain ⟨percents, hpercents, hiff⟩ := ih ht' hgrows hlt
    obtain ⟨more, file, hmore, hline, rfl⟩ := htext
    refine ⟨cpuPercent t.statics t' :: percents, ?_, ?_⟩
    · rw [List.map_cons, getSystemCPUPercents, getSystemCPUPercent_shown ht' hmore hline,
        Option.bind_some, hpercents]
      rfl
    · rw [List.forall_mem_cons, hiff, cpuPercent_mem_iff ht ht' hgrow, List.isChain_cons_cons]

/-- **When all percentages lie between 0 and 100.** For every sequence of readings
taken by successive calls, in which all times but `iowait` grow: exactly if the
idle time decreases between no two of them while the whole time increases. -/
theorem percent_in_range_iff {texts : List CStr} {readings : List CpuTimes}
    (hshows : List.Forall₂ Shows texts readings) (hgrows : readings.IsChain CpuTimes.Grows)
    (hlt : ∀ t ∈ readings, t.sum < 2 ^ 64) :
    ∃ percents, getSystemCPUPercents (texts.map some) .init = some percents ∧
      ((∀ p ∈ percents, 0 ≤ p ∧ p ≤ 100) ↔ readings.IsChain CpuTimes.IdleGrows) := by
  cases hshows with
  | nil => exact ⟨[], rfl, by simp⟩
  | @cons text t texts readings htext hshows =>
    obtain ⟨ht, hlt⟩ := List.forall_mem_cons.mp hlt
    obtain ⟨percents, hpercents, hiff⟩ := getSystemCPUPercents_mem_iff hshows ht hgrows hlt
    obtain ⟨more, file, hmore, hline, rfl⟩ := htext
    refine ⟨0 :: percents, ?_, ?_⟩
    · rw [List.map_cons, getSystemCPUPercents, getSystemCPUPercent_shown ht hmore hline,
        Option.bind_some, hpercents, cpuPercent_init]
      rfl
    · rw [List.forall_mem_cons, and_iff_right (by norm_num), hiff]

/-- Half of the time between these readings was idle. -/
def halfIdle : List CpuTimes := [⟨100, 0, 0, 100, 10, 0, 0, 0⟩, ⟨150, 0, 0, 150, 10, 0, 0, 0⟩]

/-- Between these readings some of the time spent waiting was taken back. -/
def waitTakenBack : List CpuTimes :=
  [⟨100, 0, 0, 100, 10, 0, 0, 0⟩, ⟨200, 0, 0, 100, 5, 0, 0, 0⟩]

/-- The files with these readings, without the times of guests. -/
def shownStats (readings : List CpuTimes) : List CStr :=
  readings.map (fun t => t.shown " 0 0".toList ++ ['\n'])

theorem shows_shownStats (readings : List CpuTimes) :
    List.Forall₂ Shows (shownStats readings) readings := by
  unfold shownStats
  rw [List.forall₂_map_left_iff]
  exact List.forall₂_same.mpr (fun t _ => ⟨" 0 0".toList, [], notDigit_cons (by decide) _,
    by decide, rfl⟩)

theorem percent_in_range_iff_half :
    ∃ percents, getSystemCPUPercents ((shownStats halfIdle).map some) .init = some percents ∧
      ∀ p ∈ percents, 0 ≤ p ∧ p ≤ 100 := by
  have hgrows : halfIdle.IsChain CpuTimes.Grows := by
    unfold halfIdle
    rw [List.isChain_pair]
    constructor <;> decide
  obtain ⟨percents, hpercents, hiff⟩ :=
    percent_in_range_iff (shows_shownStats halfIdle) hgrows (by decide)
  exact ⟨percents, hpercents, hiff.mpr (by decide)⟩

/-- **A difference that wraps around**: the percentage is far below zero. -/
theorem wait_taken_back_percent :
    waitTakenBack.IsChain CpuTimes.Grows ∧ (∀ t ∈ waitTakenBack, t.sum < 2 ^ 64) ∧
      List.Forall₂ Shows (shownStats waitTakenBack) waitTakenBack ∧
      getSystemCPUPercents ((shownStats waitTakenBack).map some) .init
        = some [0, 100 * (1 - (2 ^ 64 - 5) / 95)] ∧
      ¬ (0 ≤ 100 * (1 - (2 ^ 64 - 5) / 95 : ℚ)) := by
  have hgrows : waitTakenBack.IsChain CpuTimes.Grows := by
    unfold waitTakenBack
    rw [List.isChain_pair]
    constructor <;> decide
  have hread : ∀ {t : CpuTimes} (s : CpuStatics), t.sum < 2 ^ 64 →
      getSystemCPUPercent (some (t.shown " 0 0".toList ++ ['\n'])) s
        = some (t.statics, cpuPercent s t) :=
    fun s ht => getSystemCPUPercent_shown ht (notDigit_cons (by decide) _) (by decide) s
  have hpercent : cpuPercent (CpuTimes.statics ⟨100, 0, 0, 100, 10, 0, 0, 0⟩)
      ⟨200, 0, 0, 100, 5, 0, 0, 0⟩ = 100 * (1 - (2 ^ 64 - 5) / 95) := by
    have hdiffs : subUnsigned 305 210 = 95 ∧ subUnsigned 105 110 = 2 ^ 64 - 5 := by decide
    unfold cpuPercent
    rw [if_pos (by decide)]
    show (if subUnsigned 305 210 > 0 then
      100 * (1 - (subUnsigned 105 110 : ℚ) / subUnsigned 305 210) else 0) = _
    rw [hdiffs.1, hdiffs.2, if_pos (by decide)]
    norm_num
  refine ⟨hgrows, by decide, shows_shownStats _, ?_, by norm_num⟩
  show getSystemCPUPercents [some _, some _] .init = _
  rw [getSystemCPUPercents, hread _ (by decide), Option.bind_some, getSystemCPUPercents,
    hread _ (by decide), hpercent]
  rfl
