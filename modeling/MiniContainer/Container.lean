import MiniContainer.CText

/-!
# The data of the container manager

The structures of the program's headers. A `char *` that may be null is an
`Option CStr`, an `int` or a `time_t` is a `ℤ`, an `unsigned long` is a
`ℕ`. A command is the pointer to its array of words together with the count
the program keeps beside it; the words themselves may be null, since the
program tests them.

The state of a container is an enumeration in the source, but the state
file stores it as a number and reading the file casts whatever number it
finds. `ContainerState.invalid` holds those, and its proof field keeps it
from naming one of the four states a second time, so that
`ContainerState.ofInt` and `ContainerState.toInt` are inverse.
-/

open CText

/-- `container_state_t`, with the values a cast can produce besides. -/
inductive ContainerState
  | created
  | running
  | stopped
  | destroyed
  /-- A number that is none of the enumerators. -/
  | invalid (code : ℤ) (h : code < 0 ∨ 3 < code)
  deriving DecidableEq, Repr

namespace ContainerState

/-- The number `%d` prints for a state. -/
def toInt : ContainerState → ℤ
  | created => 0
  | running => 1
  | stopped => 2
  | destroyed => 3
  | invalid code _ => code

/-- `static_cast<container_state_t>` of a number. -/
def ofInt (n : ℤ) : ContainerState :=
  if h : n < 0 ∨ 3 < n then invalid n h
  else if n = 0 then created
  else if n = 1 then running
  else if n = 2 then stopped
  else destroyed

@[simp] theorem ofInt_toInt (s : ContainerState) : ofInt s.toInt = s := by
  cases s with
  | invalid code h => rw [toInt, ofInt, dif_pos h]
  | _ => rfl

@[simp] theorem toInt_ofInt (n : ℤ) : (ofInt n).toInt = n := by
  unfold ofInt
  split_ifs with h h₀ h₁ h₂ <;> simp only [toInt] <;> omega

/-- **The cast loses nothing**: a state is its number. -/
theorem toInt_injective : Function.Injective toInt :=
  Function.LeftInverse.injective ofInt_toInt

/-- One of the four enumerators. -/
def Named (s : ContainerState) : Prop := 0 ≤ s.toInt ∧ s.toInt ≤ 3

end ContainerState

/-- `namespace_config_t`. -/
structure NamespaceConfig where
  flags : ℤ
  deriving DecidableEq, Repr

/-- `cpu_limits_t`. -/
structure CpuLimits where
  shares : ℤ
  quotaUs : ℤ
  periodUs : ℤ
  deriving DecidableEq, Repr

/-- `memory_limits_t`. -/
structure MemoryLimits where
  limitBytes : ℕ
  swapLimitBytes : ℕ
  deriving DecidableEq, Repr

/-- `resource_limits_t`. -/
structure ResourceLimits where
  cpu : CpuLimits
  memory : MemoryLimits
  enabled : ℤ
  deriving DecidableEq, Repr

/-- `fs_isolation_method_t`, which has one enumerator. -/
inductive FsIsolationMethod
  | chroot
  deriving DecidableEq, Repr

/-- `fs_config_t`. -/
structure FsConfig where
  rootPath : Option CStr
  method : FsIsolationMethod
  createMinimalFs : ℤ
  deriving DecidableEq, Repr

/-- `container_config_t`. `command` is the array `command[0]`,
`command[1]`, … as far as it reaches, or `none` for a null pointer; reading
past its end gives the null that terminates it. -/
structure ContainerConfig where
  id : Option CStr
  rootPath : Option CStr
  nsConfig : NamespaceConfig
  resLimits : ResourceLimits
  fsConfig : FsConfig
  command : Option (List (Option CStr))
  commandArgc : ℤ
  deriving DecidableEq, Repr

/-- `container_info_t`. -/
structure ContainerInfo where
  id : CStr
  pid : ℤ
  state : ContainerState
  createdAt : ℤ
  startedAt : ℤ
  stoppedAt : ℤ
  savedConfig : Option ContainerConfig
  deriving DecidableEq, Repr

/-- `CLONE_NEWPID | CLONE_NEWNS`. -/
def containerNamespaces : ℤ := 0x20020000

/-- `namespace_config_init`. -/
def namespaceConfigInit : NamespaceConfig := ⟨containerNamespaces⟩

/-- `resource_limits_init`. -/
def resourceLimitsInit : ResourceLimits where
  cpu := ⟨1024, -1, 100000⟩
  memory := ⟨128 * 1024 * 1024, 0⟩
  enabled := 1

/-- `fs_config_init`. -/
def fsConfigInit : FsConfig := ⟨none, .chroot, 0⟩

/-- `extract_numeric_id`: the number an identifier denotes, narrowed to
`int`, or `-1` where it does not denote a positive one. -/
def extractNumericId (id : CStr) : ℤ :=
  let r := strtol id
  if r.2 = [] ∧ r.1 > 0 then wrap32 r.1 else -1

/-- **A numeral names its number**: the identifiers the program generates
are read back as what they were generated from. -/
theorem extractNumericId_printDecimal {n : ℤ} (hpos : 0 < n) (hn : IsInt n) :
    extractNumericId (printDecimal n) = n := by
  unfold extractNumericId
  rw [strtol_printDecimal, clampLong_of_isLong hn.isLong]
  rw [if_pos ⟨rfl, hpos⟩, wrap32_of_isInt hn]
