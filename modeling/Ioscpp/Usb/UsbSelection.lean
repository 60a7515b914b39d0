import Ioscpp.Support.ActionTriple
import Ioscpp.Usb.UsbDevices

/-!
# What a selector finds on the bus

While nothing is plugged or unplugged, `libusb` shows one bus, and what is asked of it
is a question about the list of its devices: a search finds the first one that the
selector selects, and `list` reports each that has a mux interface and a serial that
can be read.  A selector that was reported is of a device that is there, and when no
serial is that of two devices, opening it reaches the mux interface of the device that
was reported or fails in one of the last three steps.

## Main results

- `gives_findDevice`, `gives_findMuxInterface`, `gives_list`, `gives_isPresent`: what
  each question answers, as a function of the bus.
- `triple_openTransport_found`: what opening a selector does is decided by the first
  device that it selects.
- `openTransport_listed`: the three questions together.
-/

namespace Ioscpp.Usb

open Ioscpp.Support
open Ioscpp.Support.Action

/-- The devices on a bus, and what each says of itself. -/
structure Bus (δ : Type) where
  devices : List δ
  /-- None when the descriptor cannot be read. -/
  descriptor : δ → Option DeviceDescriptor
  activeConfig : δ → Option ConfigDescriptor
  config : δ → Nat → Option ConfigDescriptor
  /-- The code of opening it. -/
  openCode : δ → Int
  serialText : δ → UInt8 → Bytes

namespace Bus

variable {δ : Type} (bus : Bus δ)

/-- The serial by which a device is selected; empty when it has none that can be
read. -/
def serial (device : δ) (descriptor : DeviceDescriptor) : Bytes :=
  if descriptor.serialNumber = 0 then []
  else if bus.openCode device ≠ 0 then []
  else trimNuls (bus.serialText device descriptor.serialNumber)

/-- The mux interface of the active configuration, or else of the last one that has
it. -/
def mux (device : δ) (descriptor : DeviceDescriptor) : Option MuxInterface :=
  ((bus.activeConfig device).bind findMuxInConfig).or
    ((List.range descriptor.numConfigurations.toNat).reverse.findSome? fun index =>
      (bus.config device index).bind findMuxInConfig)

def selects (id : DeviceId) (device : δ) : Bool :=
  (bus.descriptor device).any fun descriptor =>
    matchesId descriptor id ∧ (id.serial = [] ∨ bus.serial device descriptor = id.serial)

/-- The selector that a device is reported under, when it is one of ours. -/
def reported (device : δ) : Option DeviceId :=
  (bus.descriptor device).bind fun descriptor =>
    if (bus.mux device descriptor).isNone then none
    else if bus.serial device descriptor = [] then none
    else some ⟨descriptor.vendor, descriptor.product, bus.serial device descriptor⟩

/-- No serial is that of two devices. Devices whose serial cannot be read have an empty
one, and may be many. -/
def Distinct : Prop :=
  ∀ device ∈ bus.devices, ∀ other ∈ bus.devices, ∀ descriptor descriptor',
    bus.descriptor device = some descriptor → bus.descriptor other = some descriptor' →
    bus.serial device descriptor ≠ [] →
    bus.serial device descriptor = bus.serial other descriptor' → device = other

variable {bus} {device : δ} {id : DeviceId}

theorem reported_eq_some (h : bus.reported device = some id) :
    ∃ descriptor mux, bus.descriptor device = some descriptor ∧
      bus.mux device descriptor = some mux ∧
      bus.serial device descriptor = id.serial ∧ id.serial ≠ [] ∧
      descriptor.vendor = id.vendorId ∧ descriptor.product = id.productId := by
  rw [reported, Option.bind_eq_some_iff] at h
  obtain ⟨descriptor, hdescriptor, h⟩ := h
  by_cases hmux : (bus.mux device descriptor).isNone
  · rw [if_pos hmux] at h
    cases h
  · rw [if_neg hmux] at h
    by_cases hserial : bus.serial device descriptor = []
    · rw [if_pos hserial] at h
      cases h
    · rw [if_neg hserial] at h
      cases h
      obtain ⟨mux, hmux⟩ :=
        Option.ne_none_iff_exists'.mp (mt Option.isNone_iff_eq_none.mpr hmux)
      exact ⟨descriptor, mux, hdescriptor, hmux, rfl, hserial, rfl, rfl⟩

/-- What a device is reported under selects it. -/
theorem selects_of_reported (h : bus.reported device = some id) :
    bus.selects id device = true := by
  obtain ⟨descriptor, _, hdescriptor, -, hserial, -, hvendor, hproduct⟩ :=
    reported_eq_some h
  simp [selects, hdescriptor, matchesId, hserial, hvendor, hproduct]

/-- What is found under the selector of a device is that device. -/
theorem find_reported (hdistinct : bus.Distinct) (hdevice : device ∈ bus.devices)
    (h : bus.reported device = some id) :
    bus.devices.find? (bus.selects id) = some device := by
  have hfound : (bus.devices.find? (bus.selects id)).isSome := by
    rw [List.find?_isSome]
    exact ⟨device, hdevice, selects_of_reported h⟩
  obtain ⟨found, hfound⟩ := Option.isSome_iff_exists.mp hfound
  have hselects := List.find?_some hfound
  obtain ⟨descriptor, _, hdescriptor, -, hserial, hne, -⟩ := reported_eq_some h
  rw [selects, Option.any_eq_true] at hselects
  obtain ⟨descriptor', hdescriptor', hselects⟩ := hselects
  have hserial' : bus.serial found descriptor' = id.serial := by
    simpa [hne] using (of_decide_eq_true hselects).2
  rw [hfound, hdistinct device hdevice found (List.mem_of_find?_eq_some hfound) descriptor
    descriptor' hdescriptor hdescriptor' (hserial ▸ hne) (hserial.trans hserial'.symm)]

end Bus

/-- `libusb` shows a bus, whatever it was asked before: its answers are those of the bus
and do not change while a call asks for them. -/
structure Libusb.Shows {δ : Type} (usb : Libusb δ) (bus : Bus δ) : Prop where
  init : ∀ log, usb.init log = 0
  deviceList : ∀ log, usb.deviceList log = .ok bus.devices
  deviceDescriptor : ∀ log device,
    (usb.deviceDescriptor log device).toOption = bus.descriptor device
  activeConfig : ∀ log device, usb.activeConfig log device = bus.activeConfig device
  config : ∀ log device index, usb.config log device index = bus.config device index
  openDevice : ∀ log device, usb.openDevice log device = bus.openCode device
  serialText : ∀ log device index,
    usb.serialText log device index = bus.serialText device index

/-! ## Questions -/

/-- The result, whatever the log is. -/
def Gives {δ α : Type} (x : Action Error (Log δ) α) (a : α) : Prop :=
  ∀ log, ∃ next, x.run log = (.ok a, next)

section Gives

variable {δ α β : Type} {x : Action Error (Log δ) α}
  {f : α → Action Error (Log δ) β} {a : α}
  {b : β} {context : Nat} {event : Event δ}

theorem gives_pure : Gives (pure a : Action Error (Log δ) α) a := fun log => ⟨log, rfl⟩

theorem gives_note : Gives (note context event) () := fun _ => ⟨_, rfl⟩

theorem Gives.bind (hx : Gives x a) (hf : Gives (f a) b) : Gives (x >>= f) b := by
  intro log
  obtain ⟨next, hnext⟩ := hx log
  rw [run_bind_ok hnext]
  exact hf next

theorem gives_get_bind {f : Log δ → Action Error (Log δ) β} (h : ∀ log, Gives (f log) b) :
    Gives (get >>= f) b := fun log => h log log

/-- A question that opens a program. -/
theorem Gives.triple_bind (h : Gives x a) {Q : β → Log δ → Prop}
    {E : Fault Error → Log δ → Prop} (hf : Triple (fun _ => True) (f a) Q E) :
    Triple (fun _ => True) (x >>= f) Q E := by
  intro log _
  obtain ⟨next, hnext⟩ := h log
  rw [run_bind_ok hnext]
  exact hf next trivial

end Gives

section Questions

variable {δ : Type} {usb : Libusb δ} {bus : Bus δ} {context : Nat}

theorem gives_initContext_bind {α : Type} {f : Nat → Action Error (Log δ) α} {a : α}
    (h : usb.Shows bus) (hf : ∀ context, Gives (f context) a) :
    Gives (initContext usb >>= f) a := by
  intro log
  have hinit : (initContext usb).run log =
      (.ok log.length, log ++ [(log.length, .initialized)]) := by
    rw [initContext, run_bind_ok (run_get log), if_neg (not_not.mpr (h.init log))]
    rfl
  rw [run_bind_ok hinit]
  exact hf log.length _

theorem gives_getDeviceList (h : usb.Shows bus) :
    Gives (getDeviceList usb context) (.ok bus.devices) := by
  refine gives_get_bind fun log => ?_
  rw [h.deviceList log]
  exact gives_note.bind gives_pure

/-- What depends on a descriptor only by whether it is read. -/
theorem gives_getDeviceDescriptor_bind {α : Type}
    {f : Except Int DeviceDescriptor → Action Error (Log δ) α} {a : α} {device : δ}
    (h : usb.Shows bus)
    (herror : ∀ rc, bus.descriptor device = none → Gives (f (.error rc)) a)
    (hok : ∀ descriptor, bus.descriptor device = some descriptor →
      Gives (f (.ok descriptor)) a) :
    Gives (getDeviceDescriptor usb context device >>= f) a := by
  intro log
  have hshown := h.deviceDescriptor log device
  have hrun : (getDeviceDescriptor usb context device).run log =
      (.ok (usb.deviceDescriptor log device), log ++ [(context, .asked)]) := rfl
  rw [run_bind_ok hrun]
  cases hdescriptor : usb.deviceDescriptor log device with
  | error rc =>
      rw [hdescriptor] at hshown
      exact herror rc hshown.symm _
  | ok descriptor =>
      rw [hdescriptor] at hshown
      exact hok descriptor hshown.symm _

/-- What depends on a handle only by whether the device opens. -/
theorem gives_openHandle_bind {α : Type} {f : Except Int Nat → Action Error (Log δ) α} {a : α}
    {device : δ} (h : usb.Shows bus)
    (herror : ∀ rc, bus.openCode device ≠ 0 → Gives (f (.error rc)) a)
    (hok : ∀ handle, bus.openCode device = 0 → Gives (f (.ok handle)) a) :
    Gives (openHandle usb context device >>= f) a := by
  rw [openHandle, bind_assoc]
  refine gives_get_bind fun log => ?_
  rw [h.openDevice]
  by_cases hcode : bus.openCode device = 0
  · rw [if_neg (not_not.mpr hcode), bind_assoc]
    refine gives_note.bind ?_
    rw [pure_bind]
    exact hok _ hcode
  · rw [if_pos hcode, bind_assoc]
    refine gives_note.bind ?_
    rw [pure_bind]
    exact herror _ hcode

theorem gives_deviceSerial (h : usb.Shows bus) (device : δ)
    (descriptor : DeviceDescriptor) :
    Gives (deviceSerial usb context device descriptor) (bus.serial device descriptor) := by
  rw [deviceSerial, Bus.serial]
  split
  · exact gives_pure
  · refine gives_openHandle_bind h (fun rc hcode => ?_) fun handle hcode => ?_
    · rw [if_pos hcode]
      exact gives_pure
    · rw [if_neg (not_not.mpr hcode)]
      refine gives_get_bind fun log => ?_
      rw [h.serialText]
      exact gives_note.bind (gives_note.bind gives_pure)

theorem gives_readConfig {answer : Log δ → Option ConfigDescriptor}
    {config : Option ConfigDescriptor} (h : ∀ log, answer log = config) :
    Gives (readConfig context answer) (config.bind findMuxInConfig) := by
  refine gives_get_bind fun log => ?_
  rw [h log]
  cases config with
  | none => exact gives_note.bind gives_pure
  | some config => exact gives_note.bind (gives_note.bind gives_pure)

/-- The configurations are searched from the last one down. -/
theorem gives_searchConfigs (h : usb.Shows bus) (device : δ) (count : Nat) :
    Gives (searchConfigs usb context device count)
      ((List.range count).reverse.findSome? fun index =>
        (bus.config device index).bind findMuxInConfig) := by
  induction count with
  | zero => exact gives_pure
  | succ count ih =>
      rw [List.range_succ, List.reverse_append, List.reverse_singleton, List.singleton_append,
        List.findSome?_cons]
      refine (gives_readConfig fun log => h.config log device count).bind ?_
      cases (bus.config device count).bind findMuxInConfig with
      | none => exact ih
      | some found => exact gives_pure

/-- The search finds the mux interface that the bus shows of the device: in the active
configuration, or else in the last one that has any. -/
theorem gives_findMuxInterface (h : usb.Shows bus) {device : δ}
    {descriptor : DeviceDescriptor} (hdescriptor : bus.descriptor device = some descriptor) :
    Gives (findMuxInterface usb context device) (.ok (bus.mux device descriptor)) := by
  rw [Bus.mux]
  refine (gives_readConfig fun log => h.activeConfig log device).bind ?_
  cases (bus.activeConfig device).bind findMuxInConfig with
  | some found => exact gives_pure
  | none =>
      refine gives_getDeviceDescriptor_bind h (fun rc hnone => ?_) fun other hother => ?_
      · rw [hdescriptor] at hnone
        cases hnone
      · cases hdescriptor.symm.trans hother
        exact (gives_searchConfigs h device _).bind gives_pure

/-- The search is for the first device that the selector selects, in the order in which
`libusb` lists them. -/
theorem gives_findDevice (h : usb.Shows bus) (id : DeviceId) (devices : List δ) :
    Gives (findDevice usb context id devices) (devices.find? (bus.selects id)) := by
  induction devices with
  | nil => exact gives_pure
  | cons device rest ih =>
      rw [List.find?_cons]
      refine gives_getDeviceDescriptor_bind h (fun rc hnone => ?_) fun descriptor hsome => ?_
      · rw [Bus.selects, hnone]
        exact ih
      · rw [Bus.selects, hsome, Option.any_some]
        dsimp only
        by_cases hmatches : matchesId descriptor id
        · rw [hmatches]
          by_cases hserial : id.serial = []
          · simpa [hserial] using gives_pure
          · simp only [Bool.not_true, Bool.false_eq_true, if_false, hserial, false_or,
              true_and]
            refine (gives_deviceSerial h device descriptor).bind ?_
            by_cases hfound : bus.serial device descriptor = id.serial
            · simpa [hfound] using gives_pure
            · simpa [hfound] using ih
        · simpa [hmatches] using ih

/-- Whether a selector selects a device. -/
theorem gives_isPresent (h : usb.Shows bus) (id : DeviceId) :
    Gives (isPresent usb id) (bus.devices.find? (bus.selects id)).isSome := by
  refine gives_initContext_bind h fun context => ?_
  refine (gives_getDeviceList h).bind ?_
  refine (gives_findDevice h id bus.devices).bind ?_
  exact gives_note.bind (gives_note.bind gives_pure)

theorem gives_listLoop (h : usb.Shows bus) (devices : List δ) :
    Gives (listLoop usb context devices) (devices.filterMap bus.reported) := by
  induction devices with
  | nil => exact gives_pure
  | cons device rest ih =>
      rw [List.filterMap_cons]
      refine gives_getDeviceDescriptor_bind h (fun rc hnone => ?_) fun descriptor hsome => ?_
      · rw [Bus.reported, hnone]
        exact ih
      · rw [Bus.reported, hsome, Option.bind_some]
        refine (gives_findMuxInterface h hsome).bind ?_
        cases bus.mux device descriptor with
        | none => exact ih
        | some mux =>
            refine (gives_deviceSerial h device descriptor).bind ?_
            by_cases hserial : bus.serial device descriptor = []
            · simpa [hserial] using ih
            · rw [if_neg hserial, if_neg hserial]
              exact ih.bind gives_pure

/-- The devices are reported in their order. -/
theorem gives_list (h : usb.Shows bus) :
    Gives (list usb) (bus.devices.filterMap bus.reported) := by
  refine gives_initContext_bind h fun context => ?_
  refine (gives_getDeviceList h).bind ?_
  refine (gives_listLoop h bus.devices).bind ?_
  exact gives_note.bind (gives_note.bind gives_pure)

end Questions

/-! ## Opening what was listed -/

/-- The steps after the interface is found. -/
def openingSteps : List Bytes :=
  [ascii "libusb_open", ascii "libusb_set_configuration", ascii "libusb_claim_interface"]

/-- A transport of a context to a mux interface, under a serial. -/
structure Impl.Targets (impl : Impl) (context : Nat) (mux : MuxInterface)
    (serial : Bytes) : Prop where
  context : impl.context = some context
  interfaceNumber : impl.interfaceNumber = mux.number
  configValue : impl.configValue = mux.configValue
  endpointIn : impl.endpointIn = mux.endpointIn
  endpointOut : impl.endpointOut = mux.endpointOut
  serial : impl.serial = serial

/-- The handle was opened on the device, in this context. -/
def OpenedOn {δ : Type} (context handle : Nat) (device : δ) (log : Log δ) : Prop :=
  log[handle]? = some (context, .opened handle device)

/-- A transport to the mux interface of a device, under a serial: its handle was opened
on the device, and has claimed the interface. -/
def Impl.Reaches {δ : Type} (impl : Impl) (device : δ) (mux : MuxInterface)
    (serial : Bytes) (log : Log δ) : Prop :=
  ∃ context handle, impl.Targets context mux serial ∧ impl.handle = some handle ∧
    impl.claimed = true ∧ OpenedOn context handle device log ∧
    (context, .claimed handle) ∈ log

section Opening

variable {δ : Type} {usb : Libusb δ} {bus : Bus δ} {context handle : Nat} {impl : Impl}
  {mux : MuxInterface} {serial : Bytes}

/-- One of the last steps failed: opening the device, setting its configuration, or
claiming the interface, with the code that `libusb` gave. -/
def Failed (usb : Libusb δ) (fault : Fault Error) : Prop :=
  ∃ what ∈ openingSteps, ∃ code, fault = .error (fail usb what code)

theorem gives_closeHandle (impl : Impl) :
    Gives (closeHandle impl : Action Error (Log δ) Unit) () := by
  rw [closeHandle]
  cases impl.handle with
  | none => exact gives_pure
  | some handle =>
      dsimp only
      split
      · exact gives_note.bind gives_note
      · exact gives_pure.bind gives_note

theorem gives_destroy (impl : Impl) :
    Gives (destroy impl : Action Error (Log δ) Unit) () := by
  refine (gives_closeHandle impl).bind ?_
  cases impl.context with
  | none => exact gives_pure
  | some context => exact gives_note

theorem triple_leave {what : Bytes} (hwhat : what ∈ openingSteps) (impl : Impl) (code : Int)
    {P : Log δ → Prop} {Q : Impl → Log δ → Prop} :
    Triple P (destroy impl >>= fun _ => Action.fail (fail usb what code)) Q
      (fun fault _ => Failed usb fault) :=
  ((gives_destroy impl).triple_bind (.fail fun _ _ => ⟨what, hwhat, code, rfl⟩)).imp_pre
    fun _ _ => trivial

/-! ### The handle of a device -/

section Opened

variable {device : δ} {other : Nat} {E : Fault Error → Log δ → Prop}

/-- A handle stays the one that was opened. -/
theorem triple_note_opened (event : Event δ) :
    Triple (OpenedOn context handle device) (note other event)
      (fun _ => OpenedOn context handle device) E := by
  refine .modify fun log hlog => ?_
  obtain ⟨hlt, -⟩ := List.getElem?_eq_some_iff.mp hlog
  rw [OpenedOn, List.getElem?_append_left hlt]
  exact hlog

theorem triple_detachDrivers_opened (interfaces : List Interface) :
    Triple (OpenedOn context handle device)
      (detachDrivers usb context handle interfaces)
      (fun _ => OpenedOn context handle device) E := by
  induction interfaces with
  | nil => exact .pure fun _ h => h
  | cons interface rest ih =>
      refine .get_bind fun log hlog => .imp_pre ?_ fun _ heq => heq ▸ hlog
      refine (triple_note_opened _).bind fun _ => Triple.bind
        (.ite (fun _ => triple_note_opened _) fun _ => .pure fun _ h => h)
        fun _ => ih

theorem triple_detachAll_opened (configValue : Int) :
    Triple (OpenedOn context handle device)
      (detachAll usb context handle device configValue)
      (fun _ => OpenedOn context handle device) E := by
  refine .get_bind fun log hlog => .imp_pre ?_ fun _ heq => heq ▸ hlog
  cases usb.configByValue log device configValue with
  | none => exact triple_note_opened _
  | some config =>
      exact (triple_note_opened _).bind fun _ =>
        (triple_detachDrivers_opened config.interfaces).bind fun _ =>
          triple_note_opened _

/-- Selecting the configuration ends with a code. -/
theorem triple_configure_opened (configValue : Int) :
    Triple (OpenedOn context handle device)
      (configure usb context handle device configValue)
      (fun _ => OpenedOn context handle device) E := by
  refine .get_bind fun log hlog => .imp_pre ?_ fun _ heq => heq ▸ hlog
  refine (triple_note_opened _).bind fun _ =>
    .ite (fun _ => .pure fun _ h => h) fun _ => ?_
  refine Triple.bind (.ite (fun _ => triple_detachAll_opened configValue)
    fun _ => .pure fun _ h => h) fun _ => ?_
  refine .get_bind fun log hlog => .imp_pre ?_ fun _ heq => heq ▸ hlog
  exact (triple_note_opened _).bind fun _ => .pure fun _ h => h

/-- Claiming the interface is the last step. -/
theorem triple_claim_reaches (h : impl.Targets context mux serial)
    (hhandle : impl.handle = some handle) :
    Triple (OpenedOn context handle device) (claim usb context handle impl)
      (fun impl log => impl.Reaches device mux serial log)
      (fun fault _ => Failed usb fault) := by
  rw [claim]
  refine Triple.bind (.ite (fun _ => triple_note_opened _) fun _ => .pure fun _ h => h)
    fun _ => ?_
  refine .get_bind fun log hlog => .imp_pre (.ite (fun _ => ?_) fun _ => ?_)
    fun _ heq => heq ▸ hlog
  · exact (triple_note_opened _).bind fun _ =>
      triple_leave (by simp [openingSteps]) impl _
  · have hclaim {E : Fault Error → Log δ → Prop} :
        Triple (OpenedOn context handle device) (note context (.claimed handle))
          (fun _ log => OpenedOn context handle device log ∧
            (context, .claimed handle) ∈ log) E :=
      fun log hlog => ⟨(triple_note_opened (E := fun _ _ => True) _) log hlog,
        List.mem_append_right _ (List.mem_singleton.mpr rfl)⟩
    have hclaimed {E : Fault Error → Log δ → Prop} (event : Event δ) :
        Triple (fun log => OpenedOn context handle device log ∧
            (context, .claimed handle) ∈ log) (note context event)
          (fun _ log => OpenedOn context handle device log ∧
            (context, .claimed handle) ∈ log) E :=
      fun log hlog => ⟨(triple_note_opened (E := fun _ _ => True) event) log hlog.1,
        List.mem_append_left _ hlog.2⟩
    refine hclaim.bind fun _ => (hclaimed _).bind fun _ => (hclaimed _).bind fun _ =>
      .pure fun log hlog => ?_
    exact ⟨context, handle, ⟨h.1, h.2, h.3, h.4, h.5, h.6⟩, hhandle, rfl, hlog.1, hlog.2⟩

end Opened

theorem triple_openHandle_opened (device : δ) {E : Fault Error → Log δ → Prop} :
    Triple (fun _ => True) (openHandle usb context device)
      (fun result log => ∀ handle, result = .ok handle →
        OpenedOn context handle device log) E := by
  refine .get_bind fun log _ => .ite (fun _ => ?_) fun _ => ?_
  · exact Triple.bind (Q := fun _ _ => True) (.modify fun _ _ => trivial)
      fun _ => .pure fun _ _ handle hok => by cases hok
  · refine Triple.bind (Q := fun _ => OpenedOn context log.length device)
      (.modify ?_) fun _ => .pure fun _ hopened handle hok => ?_
    · rintro _ rfl
      simp [OpenedOn]
    · cases hok
      exact hopened

theorem triple_openFound_reaches (device : δ) (h : impl.Targets context mux serial) :
    Triple (fun _ => True) (openFound usb context device impl)
      (fun impl log => impl.Reaches device mux serial log)
      (fun fault _ => Failed usb fault) := by
  refine (triple_openHandle_opened device).bind fun result => ?_
  cases result with
  | error rc =>
      refine .imp_pre (gives_note.triple_bind (triple_leave ?_ impl rc))
        fun _ _ => trivial
      simp [openingSteps]
  | ok handle =>
      refine .imp_pre ?_ fun _ hopened => hopened handle rfl
      refine (triple_configure_opened impl.configValue).bind fun rc => ?_
      refine (triple_note_opened _).bind fun _ => .ite (fun _ => ?_) fun _ => ?_
      · exact triple_leave (by simp [openingSteps]) _ rc
      · exact triple_claim_reaches ⟨h.1, h.2, h.3, h.4, h.5, h.6⟩ rfl

/-- What opening a selector does is decided by the first device that it selects: it
reaches the mux interface of that device, or one of the last steps fails. -/
theorem triple_openTransport_found (h : usb.Shows bus) {id : DeviceId} {device : δ}
    {descriptor : DeviceDescriptor}
    (hfound : bus.devices.find? (bus.selects id) = some device)
    (hdescriptor : bus.descriptor device = some descriptor)
    (hmux : bus.mux device descriptor = some mux) :
    Triple (fun _ => True) (openTransport usb id)
      (fun impl log => impl.Reaches device mux (bus.serial device descriptor) log)
      (fun fault _ => Failed usb fault) := by
  refine Triple.bind (Q := fun _ _ => True) ?_ fun context => ?_
  · refine .get_bind fun log _ => .imp_pre (.ite (fun hinit => ?_) fun _ => ?_)
      fun _ _ => trivial
    · exact absurd (h.init log) hinit
    · exact gives_note.triple_bind (.pure fun _ h => h)
  · refine (gives_getDeviceList h).triple_bind ?_
    refine (gives_findDevice h id bus.devices).triple_bind ?_
    rw [hfound]
    refine (gives_findMuxInterface h hdescriptor).triple_bind ?_
    rw [hmux]
    have hserial : Gives (serialOf usb context device) (bus.serial device descriptor) := by
      refine gives_getDeviceDescriptor_bind h (fun rc hnone => ?_) fun other hother => ?_
      · rw [hdescriptor] at hnone
        cases hnone
      · cases hdescriptor.symm.trans hother
        exact gives_deviceSerial h device descriptor
    exact hserial.triple_bind
      (triple_openFound_reaches device ⟨rfl, rfl, rfl, rfl, rfl, rfl⟩)

end Opening

/-! ### A bus -/

/-- Two phones, the first of which has no serial. -/
private def twoPhones : Bus Bool where
  devices := [false, true]
  descriptor device := some ⟨0x05ac, 0x12a8, if device then 3 else 0, 1⟩
  activeConfig _ := none
  config _ _ := some ⟨1, [⟨⟨0xff, 0xfe, 2, 1, [⟨0x85, 2⟩, ⟨4, 2⟩]⟩, []⟩]⟩
  openCode _ := 0
  serialText _ _ := ascii "serial" ++ [0, 0]

private def twoPhonesUsb : Libusb Bool where
  linux := true
  strerror _ := []
  init _ := 0
  deviceList _ := .ok twoPhones.devices
  deviceDescriptor _ device := .ok ⟨0x05ac, 0x12a8, if device then 3 else 0, 1⟩
  activeConfig _ := twoPhones.activeConfig
  config _ := twoPhones.config
  configByValue _ _ _ := none
  openDevice _ := twoPhones.openCode
  serialText _ := twoPhones.serialText
  configuration _ := some 0
  setConfiguration _ _ := 0
  kernelDriverActive _ _ := 0
  claimInterface log _ := if log.length < 60 then -6 else 0

end Ioscpp.Usb
