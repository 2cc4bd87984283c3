import Zrt.Dynamic.Specification
import Zrt.Session.Outputs

/-! Memory descriptors and their classes: `memory.rs`, and the constructors of `runtime.rs` that
clone one for the outputs. -/
namespace Zrt.Memory

open Outputs (MemoryClass ensureNonNull)

inductive MemoryInfoDeviceType where
  | cpu
  | gpu
  | fpga
  | npu

def MemoryInfoDeviceType.code : MemoryInfoDeviceType → Int
  | .cpu => 0
  | .gpu => 1
  | .fpga => 2
  | .npu => 3

inductive DeviceMemoryType where
  | default
  | hostAccessible

def DeviceMemoryType.code : DeviceMemoryType → Int
  | .default => 0
  | .hostAccessible => 5

/-- What ORT answers about a descriptor; the name may be a null pointer. -/
structure Descriptor where
  name : Option String
  deviceId : Int
  allocType : Int
  memType : Int
  deviceType : Int
  deviceMemType : Int
  vendorId : Nat

def classifyMemory (name : String) (deviceType deviceMemType : Int) : MemoryClass :=
  if deviceMemType = DeviceMemoryType.hostAccessible.code then
    if deviceType = MemoryInfoDeviceType.gpu.code ∨ name = "Cuda" ∨ name = "CudaGPU" ∨
        name = "CudaPinned" then .cudaPinned
    else .cpu
  else if name = "Cpu" then .cpu
  else if name = "Cuda" ∨ name = "CudaGPU" then .cudaDevice
  else if name = "CudaPinned" then .cudaPinned
  else if name = "" ∨ deviceType = MemoryInfoDeviceType.cpu.code then .unknown
  else .otherDevice

/-- The outcomes of the calls that read a descriptor and can fail. -/
structure Getters where
  getName : Except Error Unit
  getId : Except Error Unit
  getMemType : Except Error Unit
  getType : Except Error Unit

/-- The calls that make a descriptor; it may be null. -/
structure Creators where
  createCpuMemoryInfo : Except Error (Option Descriptor)
  createMemoryInfo : String → Int → Int → Int → Except Error (Option Descriptor)
  createMemoryInfoV2 : String → MemoryInfoDeviceType → Nat → Int → DeviceMemoryType → Nat → Int →
    Except Error (Option Descriptor)

def classFromPtr (g : Getters) (info : Descriptor) : Except Error MemoryClass :=
  g.getName.map fun _ => classifyMemory (info.name.getD "") info.deviceType info.deviceMemType

structure MemoryInfoSnapshot where
  name : String
  deviceId : Int
  allocType : Int
  memType : Int
  deviceType : Int
  deviceMemType : Int
  vendorId : Nat
  memoryClass : MemoryClass

def snapshotFromPtr (g : Getters) (info : Descriptor) : Except Error MemoryInfoSnapshot :=
  g.getName.bind fun _ => g.getId.bind fun _ => g.getMemType.bind fun _ => g.getType.map fun _ =>
    let name := info.name.getD ""
    ⟨name, info.deviceId, info.allocType, info.memType, info.deviceType, info.deviceMemType,
      info.vendorId, classifyMemory name info.deviceType info.deviceMemType⟩

structure MemoryInfo where
  info : Descriptor
  memoryClass : MemoryClass

namespace MemoryInfo

def isHostAccessible (m : MemoryInfo) : Bool := m.memoryClass.isHostAccessible

def fromRawOwned (g : Getters) (info : Option Descriptor) (what : String) :
    Except Error MemoryInfo :=
  (ensureNonNull info what).bind fun info => (classFromPtr g info).map fun c => ⟨info, c⟩

variable (n : Creators) (g : Getters)

def cpu : Except Error MemoryInfo :=
  n.createCpuMemoryInfo.bind fun info => fromRawOwned g info "memory info"

def newNamed (name : String) (allocType deviceId memType : Int) : Except Error MemoryInfo :=
  (cstring name "memory name contains a NUL").bind fun _ =>
    (n.createMemoryInfo name allocType deviceId memType).bind fun info =>
      fromRawOwned g info "memory info"

/-- `AllocatorType::Device` and `MemType::Default` are 0. -/
def cuda (deviceId : Int) : Except Error MemoryInfo := newNamed n g "Cuda" 0 deviceId 0

def cudaPinned (deviceId : Int) : Except Error MemoryInfo := newNamed n g "CudaPinned" 0 deviceId 0

def newV2 (name : String) (deviceType : MemoryInfoDeviceType) (vendorId : Nat) (deviceId : Int)
    (memType : DeviceMemoryType) (alignment : Nat) (allocatorType : Int) :
    Except Error MemoryInfo :=
  (cstring name "memory name contains a NUL").bind fun _ =>
    (n.createMemoryInfoV2 name deviceType vendorId deviceId memType alignment allocatorType).bind
      fun info => fromRawOwned g info "memory info v2"

/-- `g` answers for the descriptor, `g'` for its clone. -/
def tryCloneDescriptor (g' : Getters) (m : MemoryInfo) : Except Error MemoryInfo :=
  (snapshotFromPtr g m.info).bind fun snapshot =>
    if snapshot.name = "Cpu" then cpu n g'
    else newNamed n g' snapshot.name snapshot.allocType snapshot.deviceId snapshot.memType

end MemoryInfo

/-- A runtime with the memory that its lanes bind for inputs and outputs. -/
structure PlacedRuntime (ins outs : Nat) where
  runtime : Dynamic.DynamicIoRuntime ins outs
  inputMem : MemoryInfo
  outputMem : MemoryInfo

namespace PlacedRuntime

variable {ins outs : Nat} (f : Lane.Features) (name : Nat) (n : Creators) (g g' : Getters)

/-- `shared_session_with_options` and `from_sessions_with_options`, by the mode. -/
def withOptions (mode : Dynamic.RuntimeMode) (laneCount : Nat) (inputMem outputMem : MemoryInfo)
    (options : Dynamic.DynamicIoOptions) : Except Error (PlacedRuntime ins outs) :=
  (Dynamic.DynamicIoRuntime.new f name mode laneCount options).map fun r =>
    ⟨r, inputMem, outputMem⟩

def sharedSession (mem : MemoryInfo) (lanes : Nat) : Except Error (PlacedRuntime ins outs) :=
  (mem.tryCloneDescriptor n g g').bind fun outputMem =>
    withOptions f name .sharedSession lanes mem outputMem (.new 16)

/-- `sessions` is how many there are. -/
def fromSessions (sessions : Nat) (mem : MemoryInfo) : Except Error (PlacedRuntime ins outs) :=
  (mem.tryCloneDescriptor n g g').bind fun outputMem =>
    withOptions f name .replicatedSessions sessions mem outputMem (.new 16)

end PlacedRuntime

/-- What ORT documents of its descriptors: they carry what they are made from, and the legacy calls
find the device by the name. -/
structure Creators.Documented (n : Creators) (legacy : String → Int × Int) : Prop where
  cpu : ∀ info, n.createCpuMemoryInfo = .ok (some info) →
    info.name = some "Cpu" ∧ (info.deviceType, info.deviceMemType) = legacy "Cpu"
  named : ∀ name allocType deviceId memType info,
    n.createMemoryInfo name allocType deviceId memType = .ok (some info) →
      info.name = some name ∧ (info.deviceType, info.deviceMemType) = legacy name
  v2 : ∀ name deviceType vendorId deviceId memType alignment allocatorType info,
    n.createMemoryInfoV2 name deviceType vendorId deviceId memType alignment allocatorType =
      .ok (some info) →
    info.name = some name ∧ info.deviceType = deviceType.code ∧ info.deviceMemType = memType.code

/-- The legacy calls give device memory type `Default` but for the pinned names. -/
def DefaultUnlessPinned (legacy : String → Int × Int) (pinned : String → Prop) : Prop :=
  (∀ name, ¬ pinned name → (legacy name).2 = DeviceMemoryType.default.code) ∧
    ¬ pinned "Cpu" ∧ ¬ pinned "Cuda" ∧ ¬ pinned "CudaGPU"

/-- A descriptor of a constructor that takes name, device type and device memory type from the
caller, or of one that takes the name only. -/
inductive MemoryInfo.Built (n : Creators) (g : Getters) : MemoryInfo → Prop where
  | cpu {m} (h : MemoryInfo.cpu n g = .ok m) : Built n g m
  | cuda {m deviceId} (h : MemoryInfo.cuda n g deviceId = .ok m) : Built n g m
  | cudaPinned {m deviceId} (h : MemoryInfo.cudaPinned n g deviceId = .ok m) : Built n g m
  | newNamed {m name allocType deviceId memType}
      (h : MemoryInfo.newNamed n g name allocType deviceId memType = .ok m) : Built n g m
  | newV2 {m name deviceType vendorId deviceId memType alignment allocatorType}
      (h : MemoryInfo.newV2 n g name deviceType vendorId deviceId memType alignment allocatorType =
        .ok m) : Built n g m

/-- The class does not hang on what the legacy call for the name leaves out: the device memory type,
and the device type where the name does not decide. -/
def Agrees (legacy : String → Int × Int) (name : String) (deviceType deviceMemType : Int) : Prop :=
  if name = "Cpu" then
    ¬ (deviceMemType = DeviceMemoryType.hostAccessible.code ∧
      deviceType = MemoryInfoDeviceType.gpu.code)
  else if name = "Cuda" ∨ name = "CudaGPU" then
    deviceMemType ≠ DeviceMemoryType.hostAccessible.code
  else if name = "CudaPinned" then True
  else
    (deviceMemType = DeviceMemoryType.hostAccessible.code ↔
      (legacy name).2 = DeviceMemoryType.hostAccessible.code) ∧
    (deviceMemType = DeviceMemoryType.hostAccessible.code →
      (deviceType = MemoryInfoDeviceType.gpu.code ↔
        (legacy name).1 = MemoryInfoDeviceType.gpu.code)) ∧
    (deviceMemType ≠ DeviceMemoryType.hostAccessible.code → name ≠ "" →
      (deviceType = MemoryInfoDeviceType.cpu.code ↔
        (legacy name).1 = MemoryInfoDeviceType.cpu.code))

/-- Two descriptors are alike to a host. -/
def MemoryInfo.SameAccess (m m' : MemoryInfo) : Prop :=
  m'.memoryClass = m.memoryClass ∧ m'.isHostAccessible = m.isHostAccessible

variable {n n' : Creators} {g g' : Getters} {legacy : String → Int × Int} {pinned : String → Prop}
  {m c : MemoryInfo} {name what : String} {deviceType deviceMemType : Int}

theorem fromRawOwned_ok {info : Option Descriptor}
    (h : MemoryInfo.fromRawOwned g info what = .ok m) :
    info = some m.info ∧
      m.memoryClass = classifyMemory (m.info.name.getD "") m.info.deviceType
        m.info.deviceMemType := by
  cases info with
  | none => cases h
  | some info =>
    obtain ⟨_, hc, rfl⟩ := map_eq_ok h
    obtain ⟨_, -, rfl⟩ := map_eq_ok hc
    exact ⟨rfl, rfl⟩

/-- The legacy descriptor of a name. -/
theorem newNamed_ok (hd : n.Documented legacy) {allocType deviceId memType : Int}
    (h : MemoryInfo.newNamed n g name allocType deviceId memType = .ok m) :
    m.info.name = some name ∧ (m.info.deviceType, m.info.deviceMemType) = legacy name ∧
      m.memoryClass = classifyMemory name (legacy name).1 (legacy name).2 := by
  obtain ⟨_, -, h⟩ := bind_eq_ok h
  obtain ⟨info, hi, h⟩ := bind_eq_ok h
  obtain ⟨rfl, hc⟩ := fromRawOwned_ok h
  obtain ⟨hn, hl⟩ := hd.named _ _ _ _ _ hi
  refine ⟨hn, hl, ?_⟩
  rw [hc, hn, ← hl, Option.getD_some]

theorem cpu_ok (hd : n.Documented legacy) (h : MemoryInfo.cpu n g = .ok m) :
    m.info.name = some "Cpu" ∧ (m.info.deviceType, m.info.deviceMemType) = legacy "Cpu" ∧
      m.memoryClass = classifyMemory "Cpu" (legacy "Cpu").1 (legacy "Cpu").2 := by
  obtain ⟨info, hi, h⟩ := bind_eq_ok h
  obtain ⟨rfl, hc⟩ := fromRawOwned_ok h
  obtain ⟨hn, hl⟩ := hd.cpu _ hi
  refine ⟨hn, hl, ?_⟩
  rw [hc, hn, ← hl, Option.getD_some]

/-- Each descriptor is classified by its own name and device. -/
theorem built_class (hd : n.Documented legacy) (h : m.Built n g) : ∃ name,
    m.info.name = some name ∧
      m.memoryClass = classifyMemory name m.info.deviceType m.info.deviceMemType := by
  cases h with
  | cpu h =>
    obtain ⟨hn, hl, hc⟩ := cpu_ok hd h
    exact ⟨_, hn, by rw [hc, ← hl]⟩
  | cuda h | cudaPinned h | newNamed h =>
    obtain ⟨hn, hl, hc⟩ := newNamed_ok hd h
    exact ⟨_, hn, by rw [hc, ← hl]⟩
  | newV2 h =>
    obtain ⟨_, -, h⟩ := bind_eq_ok h
    obtain ⟨info, hi, h⟩ := bind_eq_ok h
    obtain ⟨rfl, hc⟩ := fromRawOwned_ok h
    obtain ⟨hn, -, -⟩ := hd.v2 _ _ _ _ _ _ _ _ hi
    exact ⟨_, hn, by rw [hc, hn, Option.getD_some]⟩

/-- The legacy fields of a name give the clone its class. -/
theorem clone_class (hd : n.Documented legacy) {g' : Getters} (hn : m.info.name = some name)
    (h : m.tryCloneDescriptor n g g' = .ok c) :
    c.memoryClass = classifyMemory name (legacy name).1 (legacy name).2 := by
  obtain ⟨snapshot, hs, h⟩ := bind_eq_ok h
  have hname : snapshot.name = name := by
    obtain ⟨_, -, hs⟩ := bind_eq_ok hs
    obtain ⟨_, -, hs⟩ := bind_eq_ok hs
    obtain ⟨_, -, hs⟩ := bind_eq_ok hs
    obtain ⟨_, -, rfl⟩ := map_eq_ok hs
    exact hn ▸ rfl
  rw [hname] at h
  split at h
  · rename_i hcpu
    rw [(cpu_ok hd h).2.2, hcpu]
  · exact (newNamed_ok hd h).2.2

theorem classify_cuda (hn : name = "Cuda" ∨ name = "CudaGPU") :
    classifyMemory name deviceType deviceMemType =
      if deviceMemType = DeviceMemoryType.hostAccessible.code then .cudaPinned
      else .cudaDevice := by
  unfold classifyMemory
  rcases hn with rfl | rfl <;> simp

theorem classify_pinned :
    classifyMemory "CudaPinned" deviceType deviceMemType = .cudaPinned := by
  unfold classifyMemory
  simp

/-- A name that is not known leaves it to the device. -/
theorem classify_other (h1 : name ≠ "Cpu") (h2 : ¬ (name = "Cuda" ∨ name = "CudaGPU"))
    (h3 : name ≠ "CudaPinned") : classifyMemory name deviceType deviceMemType =
      if deviceMemType = DeviceMemoryType.hostAccessible.code then
        if deviceType = MemoryInfoDeviceType.gpu.code then .cudaPinned else .cpu
      else if name = "" ∨ deviceType = MemoryInfoDeviceType.cpu.code then .unknown
      else .otherDevice := by
  obtain ⟨h2, h4⟩ := not_or.mp h2
  simp [classifyMemory, h1, h2, h3, h4]

/-- When a name is classified alike from some device fields and from the legacy ones. -/
theorem classify_eq_iff (hl : DefaultUnlessPinned legacy pinned) :
    classifyMemory name (legacy name).1 (legacy name).2 =
      classifyMemory name deviceType deviceMemType ↔
        Agrees legacy name deviceType deviceMemType := by
  obtain ⟨hdefault, hcpu, hcuda, hgpu⟩ := hl
  have hne : DeviceMemoryType.default.code ≠ DeviceMemoryType.hostAccessible.code := by decide
  unfold Agrees
  by_cases h1 : name = "Cpu"
  · subst h1
    rw [if_pos rfl, hdefault _ hcpu]
    simp [classifyMemory, hne]
  rw [if_neg h1]
  by_cases h2 : name = "Cuda" ∨ name = "CudaGPU"
  · have hlegacy : (legacy name).2 = DeviceMemoryType.default.code := by
      rcases h2 with rfl | rfl
      · exact hdefault _ hcuda
      · exact hdefault _ hgpu
    rw [if_pos h2, classify_cuda h2, classify_cuda h2, hlegacy, if_neg hne]
    by_cases ha : deviceMemType = DeviceMemoryType.hostAccessible.code <;> simp [ha]
  rw [if_neg h2]
  by_cases h3 : name = "CudaPinned"
  · subst h3
    rw [if_pos rfl, classify_pinned, classify_pinned]
    exact iff_of_true rfl trivial
  rw [if_neg h3, classify_other h1 h2 h3, classify_other h1 h2 h3]
  by_cases ha : deviceMemType = DeviceMemoryType.hostAccessible.code <;>
    by_cases hb : (legacy name).2 = DeviceMemoryType.hostAccessible.code
  · simp only [ha, hb, if_true]
    split <;> split <;> simp_all
  · simp only [ha, hb, if_true, if_false]
    split <;> split <;> simp_all
  · simp only [ha, hb, if_true, if_false]
    split <;> split <;> simp_all
  · simp only [ha, hb, if_false]
    split <;> split <;> (simp_all; try tauto)

/-- When a clone is alike to a host: for every descriptor and every outcome of the calls, and for
the memory of a runtime's outputs. What a legacy call makes always agrees. -/
theorem clone_keeps_class (legacy : String → Int × Int) (pinned : String → Prop)
    (hl : DefaultUnlessPinned legacy pinned) (n n' : Creators) (hd : n.Documented legacy)
    (hd' : n'.Documented legacy) (built g g' : Getters) (m : MemoryInfo) (hm : m.Built n built) :
    (∀ name, Agrees legacy name (legacy name).1 (legacy name).2) ∧
    (∀ c, m.tryCloneDescriptor n' g g' = .ok c → (m.SameAccess c ↔
      Agrees legacy (m.info.name.getD "") m.info.deviceType m.info.deviceMemType)) ∧
    ∀ (ins outs : Nat) f name lanes (r : PlacedRuntime ins outs),
      PlacedRuntime.sharedSession f name n' g g' m lanes = .ok r ∨
        PlacedRuntime.fromSessions f name n' g g' lanes m = .ok r →
      r.inputMem = m ∧ (r.inputMem.SameAccess r.outputMem ↔
        Agrees legacy (m.info.name.getD "") m.info.deviceType m.info.deviceMemType) := by
  obtain ⟨name, hname, hclass⟩ := built_class hd hm
  have hclone : ∀ c, m.tryCloneDescriptor n' g g' = .ok c → (m.SameAccess c ↔
      Agrees legacy (m.info.name.getD "") m.info.deviceType m.info.deviceMemType) := by
    intro c hc
    rw [hname, Option.getD_some, ← classify_eq_iff hl, ← hclass, ← clone_class hd' hname hc]
    refine and_iff_left_of_imp fun h => ?_
    rw [MemoryInfo.isHostAccessible, h]
    rfl
  refine ⟨fun _ => (classify_eq_iff hl).mp rfl, hclone, ?_⟩
  intro ins outs f _ lanes r hr
  have hplaced : ∃ mode, (m.tryCloneDescriptor n' g g').bind (fun outputMem =>
      PlacedRuntime.withOptions f _ mode lanes m outputMem (.new 16)) = .ok r :=
    hr.elim (fun h => ⟨_, h⟩) fun h => ⟨_, h⟩
  obtain ⟨mode, hplaced⟩ := hplaced
  obtain ⟨c, hc, hplaced⟩ := bind_eq_ok hplaced
  obtain ⟨_, -, rfl⟩ := map_eq_ok hplaced
  exact ⟨rfl, hclone c hc⟩

/-- The devices of the names that the legacy calls know. -/
def knownDevice (name : String) : Int × Int :=
  if name = "Cuda" then (1, 0) else if name = "CudaPinned" then (1, 5) else (0, 0)

/-- An engine with a CUDA device. -/
def cudaEngine : Creators where
  createCpuMemoryInfo := .ok (some ⟨some "Cpu", 0, 0, 0, 0, 0, 0⟩)
  createMemoryInfo name allocType deviceId memType :=
    if name ∈ ["Cpu", "Cuda", "CudaPinned"] then
      .ok (some ⟨some name, deviceId, allocType, memType, (knownDevice name).1,
        (knownDevice name).2, 4318⟩)
    else .error ⟨2, "Specified device is not supported."⟩
  createMemoryInfoV2 name deviceType vendorId deviceId memType _ allocatorType :=
    .ok (some ⟨some name, deviceId, allocatorType, 0, deviceType.code, memType.code, vendorId⟩)

theorem cudaEngine_documented : cudaEngine.Documented knownDevice where
  cpu info h := by
    obtain rfl := Option.some.inj (Except.ok.inj h)
    exact ⟨rfl, rfl⟩
  named name allocType deviceId memType info h := by
    unfold cudaEngine at h
    dsimp only at h
    split at h
    · obtain rfl := Option.some.inj (Except.ok.inj h)
      exact ⟨rfl, rfl⟩
    · cases h
  v2 name deviceType vendorId deviceId memType alignment allocatorType info h := by
    obtain rfl := Option.some.inj (Except.ok.inj h)
    exact ⟨rfl, rfl, rfl⟩

theorem knownDevice_default : DefaultUnlessPinned knownDevice (· = "CudaPinned") := by
  refine ⟨?_, by decide, by decide, by decide⟩
  intro name h
  unfold knownDevice
  rw [if_neg h]
  split <;> rfl

/-- Every getter succeeds. -/
def Getters.succeed : Getters := ⟨.ok (), .ok (), .ok (), .ok ()⟩

/-- Pinned memory under the name of the provider. -/
def pinnedCuda : MemoryInfo := ⟨⟨some "Cuda", 0, 0, 0, 1, 5, 4318⟩, .cudaPinned⟩

theorem pinnedCuda_newV2 : MemoryInfo.newV2 cudaEngine .succeed "Cuda" .gpu 4318 0
    .hostAccessible 0 0 = .ok pinnedCuda := rfl

theorem clone_keeps_class_pinned : ∃ c,
    pinnedCuda.tryCloneDescriptor cudaEngine .succeed .succeed = .ok c ∧
      (pinnedCuda.SameAccess c ↔ Agrees knownDevice "Cuda" 1 5) :=
  ⟨⟨⟨some "Cuda", 0, 0, 0, 1, 0, 4318⟩, .cudaDevice⟩, rfl,
    (clone_keeps_class knownDevice (· = "CudaPinned") knownDevice_default cudaEngine cudaEngine
      cudaEngine_documented cudaEngine_documented .succeed .succeed .succeed pinnedCuda
      (.newV2 pinnedCuda_newV2)).2.1 _ rfl⟩

theorem clone_keeps_class_fails : cudaEngine.Documented knownDevice ∧
    DefaultUnlessPinned knownDevice (· = "CudaPinned") ∧
    MemoryInfo.newV2 cudaEngine .succeed "Cuda" .gpu 4318 0 .hostAccessible 0 0 = .ok pinnedCuda ∧
    ∃ c, pinnedCuda.tryCloneDescriptor cudaEngine .succeed .succeed = .ok c ∧
      ¬ pinnedCuda.SameAccess c := by
  refine ⟨cudaEngine_documented, knownDevice_default, rfl,
    ⟨⟨some "Cuda", 0, 0, 0, 1, 0, 4318⟩, .cudaDevice⟩, rfl, ?_⟩
  rintro ⟨h, -⟩
  cases h

end Zrt.Memory
