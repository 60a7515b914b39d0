import Ioscpp.Support.ActionTriple
import Ioscpp.Support.Ledger
import Ioscpp.Usb.UsbDevices

/-!
# What the USB transport takes of `libusb`

Opening a transport takes a context, a list of devices, configuration descriptors and
handles of `libusb`, and each must be given back once, in the reverse order, and not
used afterwards.  An operation is specified by what is held of its context before and
after it.

## Main results

- `triple_deviceSerial`, `triple_initContext`, `triple_giveUp`: what the parts of
  `UsbTransport` leave in the books.
-/

namespace Ioscpp.Usb

open Ioscpp.Support
open Ioscpp.Support.Action

/-! ## What is held -/

/-- What is held of a context. -/
structure Hold where
  devices : Bool := false
  config : Bool := false
  handle : Option Nat := none
  claimed : Bool := false
  deriving DecidableEq, Repr

/-- What an event makes of what is held, when it is allowed.  A context ends when
nothing else is held of it, a list after the descriptor of a configuration, and a
handle after its interface; one handle is open at a time. -/
def account {δ : Type} : Option Hold → Event δ → Option (Option Hold)
  | state, .refused => some state
  | none, .initialized => some (some {})
  | some hold, .exited => if hold = {} then some none else none
  | some hold, .listed =>
      if hold.devices then none else some (some { hold with devices := true })
  | some hold, .unlisted =>
      if hold.devices ∧ !hold.config then some (some { hold with devices := false })
      else none
  | some hold, .asked => if hold.devices then some (some hold) else none
  | some hold, .configTaken =>
      if hold.devices ∧ !hold.config then some (some { hold with config := true })
      else none
  | some hold, .configFreed =>
      if hold.config then some (some { hold with config := false }) else none
  | some hold, .opened handle _ =>
      if hold.devices ∧ hold.handle = none then
        some (some { hold with handle := some handle })
      else none
  | some hold, .used handle =>
      if hold.handle = handle ∧ handle.isSome then some (some hold) else none
  | some hold, .claimed handle =>
      if hold.handle = some handle ∧ !hold.claimed then
        some (some { hold with claimed := true })
      else none
  | some hold, .released handle =>
      if hold.handle = some handle ∧ hold.claimed then
        some (some { hold with claimed := false })
      else none
  | some hold, .closed handle =>
      if hold.handle = some handle ∧ !hold.claimed then
        some (some { hold with handle := none })
      else none
  | _, _ => none

/-- What a transport holds. -/
def Impl.hold (impl : Impl) : Hold :=
  { handle := impl.handle, claimed := impl.claimed }

/-- Every call was allowed, the ledger says what is held, and the next context has a
new name. -/
def Stands {δ : Type} (ledger : Nat → Option Hold) (log : Log δ) : Prop :=
  Books account none ledger log ∧ ∀ context, log.length ≤ context → ledger context = none

/-- The ledger, but for one context of which this is held. -/
def At {δ : Type} (ledger : Nat → Option Hold) (context : Nat) (hold : Hold)
    (log : Log δ) : Prop :=
  Stands (Function.update ledger context (some hold)) log

section Held

variable {δ : Type} {ledger : Nat → Option Hold} {context handle : Nat}
  {hold next : Hold} {event : Event δ} {E : Fault Error → Log δ → Prop} {α : Type}

theorem Stands.append {log : Log δ} {state : Option Hold} (h : Stands ledger log)
    (hcontext : context ≤ log.length)
    (hstep : account (ledger context) event = some state) :
    Stands (Function.update ledger context state) (log ++ [(context, event)]) := by
  refine ⟨h.1.append hstep, fun other hother => ?_⟩
  rw [List.length_append, List.length_singleton] at hother
  rw [Function.update_of_ne (by omega)]
  exact h.2 other (by omega)

/-- A context of which something is held has been named. -/
theorem At.context_lt {log : Log δ} (h : At ledger context hold log) :
    context < log.length := by
  by_contra hle
  have hnone := h.2 context (by omega)
  rw [Function.update_self] at hnone
  cases hnone

theorem triple_event {state : Option Hold}
    (hstep : account (some hold) event = some state) :
    Triple (At ledger context hold) (note context event)
      (fun _ => Stands (Function.update ledger context state)) E := by
  refine Triple.modify fun log hlog => ?_
  have hlt := hlog.context_lt
  have happend := Stands.append hlog hlt.le
    (show account (Function.update ledger context (some hold) context) event =
      some state by rw [Function.update_self]; exact hstep)
  rw [Function.update_idem] at happend
  exact happend

theorem triple_note (hstep : account (some hold) event = some (some next)) :
    Triple (At ledger context hold) (note context event)
      (fun _ => At ledger context next) E :=
  triple_event hstep

/-- The last event of a context. -/
theorem triple_exited (hfree : ledger context = none) :
    Triple (At ledger context {}) (note context .exited) (fun _ => Stands ledger) E := by
  have hupdate : Function.update ledger context none = ledger := by
    rw [← hfree, Function.update_eq_self]
  have hend : account (some {}) (.exited : Event δ) = some none := rfl
  refine (triple_event hend).imp_post (fun _ log hlog => ?_) fun _ _ h => h
  rwa [hupdate] at hlog

theorem triple_get_bind {P : Log δ → Prop} {f : Log δ → Action Error (Log δ) α}
    {Q : α → Log δ → Prop} (h : ∀ log, Triple P (f log) Q E) :
    Triple P ((get : Action Error (Log δ) (Log δ)) >>= f) Q E :=
  Triple.get_bind fun log hlog => (h log).at_state hlog

/-! ### Discovery -/

section Listing

variable (usb : Libusb δ)

/-- What is held while the devices are looked at. -/
def listing : Hold := { devices := true }

/-- What is held while one of them is open. -/
def holding (handle : Nat) : Hold := { devices := true, handle := some handle }

theorem triple_used (hold : Hold) (hhold : hold.handle = some handle) :
    Triple (At ledger context hold) (note context (.used (some handle)))
      (fun _ => At ledger context hold) E :=
  triple_note (by simp [account, hhold])

theorem triple_getDeviceDescriptor (device : δ) :
    Triple (At ledger context listing) (getDeviceDescriptor usb context device)
      (fun _ => At ledger context listing) E := by
  refine triple_get_bind fun log => ?_
  exact (triple_note rfl).bind fun _ => .pure fun _ h => h

/-- A program goes on from what opening a device came to. -/
theorem triple_openHandle_bind {f : Except Int Nat → Action Error (Log δ) α}
    {Q : α → Log δ → Prop} (device : δ)
    (herror : ∀ rc, Triple (At ledger context listing) (f (.error rc)) Q E)
    (hok : ∀ handle, Triple (At ledger context (holding handle)) (f (.ok handle)) Q E) :
    Triple (At ledger context listing) (openHandle usb context device >>= f) Q E := by
  rw [openHandle, bind_assoc]
  refine triple_get_bind fun log => ?_
  split
  · rw [bind_assoc]
    refine (triple_note rfl).bind fun _ => ?_
    rw [pure_bind]
    exact herror _
  · rw [bind_assoc]
    refine (triple_note rfl).bind fun _ => ?_
    rw [pure_bind]
    exact hok _

theorem triple_readConfig (answer : Log δ → Option ConfigDescriptor) :
    Triple (At ledger context listing) (readConfig context answer)
      (fun _ => At ledger context listing) E := by
  refine triple_get_bind fun log => ?_
  cases answer log with
  | none => exact (triple_note rfl).bind fun _ => .pure fun _ h => h
  | some config =>
      refine (triple_note rfl).bind fun _ => ?_
      exact (triple_note rfl).bind fun _ => .pure fun _ h => h

/-- A handle that is opened for the serial is closed again, whether or not the serial
was read. -/
theorem triple_deviceSerial (device : δ) (descriptor : DeviceDescriptor) :
    Triple (At ledger context listing) (deviceSerial usb context device descriptor)
      (fun _ => At ledger context listing) E := by
  refine .ite (fun _ => .pure fun _ h => h) fun _ => ?_
  refine triple_openHandle_bind usb device (fun rc => .pure fun _ h => h) fun handle => ?_
  have hclosed : account (some (holding handle)) (.closed handle : Event δ) =
      some (some listing) := by
    simp [account, holding, listing]
  refine triple_get_bind fun log => (triple_used _ rfl).bind fun _ => ?_
  exact (triple_note hclosed).bind fun _ => .pure fun _ h => h

theorem triple_findDevice (id : DeviceId) (devices : List δ) :
    Triple (At ledger context listing) (findDevice usb context id devices)
      (fun _ => At ledger context listing) E := by
  induction devices with
  | nil => exact .pure fun _ h => h
  | cons device rest ih =>
      refine (triple_getDeviceDescriptor usb device).bind fun result => ?_
      cases result with
      | error rc => exact ih
      | ok descriptor =>
          refine .ite (fun _ => ih) fun _ => .ite (fun _ => .pure fun _ h => h) fun _ => ?_
          refine (triple_deviceSerial usb device descriptor).bind fun serial => ?_
          exact .ite (fun _ => .pure fun _ h => h) fun _ => ih

theorem triple_searchConfigs (device : δ) (count : Nat) :
    Triple (At ledger context listing) (searchConfigs usb context device count)
      (fun _ => At ledger context listing) E := by
  induction count with
  | zero => exact .pure fun _ h => h
  | succ count ih =>
      refine (triple_readConfig _).bind fun found => ?_
      cases found with
      | none => exact ih
      | some found => exact .pure fun _ h => h

theorem triple_findMuxInterface (device : δ) :
    Triple (At ledger context listing) (findMuxInterface usb context device)
      (fun _ => At ledger context listing) E := by
  refine (triple_readConfig _).bind fun found => ?_
  cases found with
  | some found => exact .pure fun _ h => h
  | none =>
      refine (triple_getDeviceDescriptor usb device).bind fun result => ?_
      cases result with
      | error rc => exact .pure fun _ h => h
      | ok descriptor =>
          exact (triple_searchConfigs usb device _).bind fun _ => .pure fun _ h => h

theorem triple_listLoop (devices : List δ) :
    Triple (At ledger context listing) (listLoop usb context devices)
      (fun _ => At ledger context listing) E := by
  induction devices with
  | nil => exact .pure fun _ h => h
  | cons device rest ih =>
      refine (triple_getDeviceDescriptor usb device).bind fun result => ?_
      cases result with
      | error rc => exact ih
      | ok descriptor =>
          refine (triple_findMuxInterface usb device).bind fun found => ?_
          rcases found with e | _ | mux
          · exact ih
          · exact ih
          · refine (triple_deviceSerial usb device descriptor).bind fun serial => ?_
            refine .ite (fun _ => ih) fun _ => ?_
            exact ih.bind fun _ => .pure fun _ h => h

end Listing

/-! ### Contexts -/

section Contexts

variable (usb : Libusb δ)

theorem account_refused (state : Option Hold) :
    account state (.refused : Event δ) = some state := by
  cases state <;> rfl

/-- A context that is initialized is a new one, and nothing else is held of it. -/
theorem triple_initContext :
    Triple (Stands ledger) (initContext usb)
      (fun context log => ledger context = none ∧ At ledger context {} log)
      (fun _ => Stands ledger) := by
  refine Triple.get_bind fun log hlog => ?_
  have hnone := hlog.2 log.length le_rfl
  refine .ite (fun _ => ?_) fun _ => ?_
  · have hrefused := hlog.append le_rfl (account_refused (ledger log.length))
    rw [Function.update_eq_self] at hrefused
    refine Triple.bind (Q := fun _ => Stands ledger)
      (.modify fun state hstate => ?_) fun _ => .fail fun _ h => h
    rwa [hstate]
  · have hinit := hlog.append le_rfl
      (show account (ledger log.length) .initialized = some (some {}) by rw [hnone]; rfl)
    refine Triple.bind (Q := fun _ => At ledger log.length {})
      (.modify fun state hstate => ?_) fun _ => .pure fun _ h => ⟨hnone, h⟩
    rwa [hstate]

theorem triple_getDeviceList :
    Triple (At ledger context {}) (getDeviceList usb context)
      (fun result log =>
        match result with
        | .error _ => At ledger context {} log
        | .ok _ => At ledger context listing log) E := by
  refine triple_get_bind fun log => ?_
  cases usb.deviceList log with
  | error rc => exact (triple_note (account_refused _)).bind fun _ => .pure fun _ h => h
  | ok devices => exact (triple_note rfl).bind fun _ => .pure fun _ h => h

theorem keeps_isPresent (id : DeviceId) : Keeps (Stands ledger) (isPresent usb id) := by
  refine (triple_initContext usb).bind fun context => ?_
  refine .of_state fun state hstate => ?_
  obtain ⟨hfree, hstate⟩ := hstate
  refine Triple.at_state ?_ hstate
  refine (triple_getDeviceList usb).bind fun result => ?_
  cases result with
  | error rc => exact (triple_exited hfree).bind fun _ => .pure fun _ h => h
  | ok devices =>
      refine (triple_findDevice usb id devices).bind fun found => ?_
      refine (triple_note rfl).bind fun _ => ?_
      exact (triple_exited hfree).bind fun _ => .pure fun _ h => h

theorem keeps_list : Keeps (Stands ledger) (list usb) := by
  refine (triple_initContext usb).bind fun context => ?_
  refine .of_state fun state hstate => ?_
  obtain ⟨hfree, hstate⟩ := hstate
  refine Triple.at_state ?_ hstate
  refine (triple_getDeviceList usb).bind fun result => ?_
  cases result with
  | error rc => exact (triple_exited hfree).bind fun _ => .fail fun _ h => h
  | ok devices =>
      refine (triple_listLoop usb devices).bind fun found => ?_
      refine (triple_note rfl).bind fun _ => ?_
      exact (triple_exited hfree).bind fun _ => .pure fun _ h => h

end Contexts

/-! ### The life of a transport -/

section Life

variable (usb : Libusb δ) {impl : Impl}

/-- A transport of a context, whose interface is claimed on its handle only. -/
structure Impl.Of (impl : Impl) (context : Nat) : Prop where
  context_eq : impl.context = some context
  unclaimed : impl.handle = none → impl.claimed = false

theorem triple_closeHandle (h : impl.Of context) :
    Triple (At ledger context impl.hold) (closeHandle impl)
      (fun _ => At ledger context {}) E := by
  have hcontext : impl.context.getD 0 = context := by rw [h.context_eq]; rfl
  rw [closeHandle, hcontext]
  cases hhandle : impl.handle with
  | none =>
      refine .pure fun log hlog => ?_
      rw [Impl.hold, hhandle, h.unclaimed hhandle] at hlog
      exact hlog
  | some handle =>
      cases hclaimed : impl.claimed with
      | true =>
          refine Triple.bind (Q := fun _ => At ledger context { handle := some handle })
            (triple_note ?_) fun _ => triple_note ?_
          · rw [Impl.hold, hhandle, hclaimed]
            simp [account]
          · simp [account]
      | false =>
          refine Triple.bind (Q := fun _ => At ledger context { handle := some handle })
            (.pure fun log hlog => ?_) fun _ => triple_note ?_
          · rw [Impl.hold, hhandle, hclaimed] at hlog
            exact hlog
          · simp [account]

theorem triple_close (h : impl.Of context) :
    Triple (At ledger context impl.hold) (close impl)
      (fun closed log => closed.Of context ∧ At ledger context closed.hold log) E :=
  (triple_closeHandle h).bind fun _ => .pure fun _ hlog =>
    ⟨⟨h.context_eq, fun _ => rfl⟩, hlog⟩

theorem triple_destroy (h : impl.Of context) (hfree : ledger context = none) :
    Triple (At ledger context impl.hold) (destroy impl) (fun _ => Stands ledger) E := by
  refine (triple_closeHandle h).bind fun _ => ?_
  rw [h.context_eq]
  exact triple_exited hfree

/-- A transport that is given up: everything it held is given back, in the order of its
destructor, before the error is returned. -/
theorem triple_giveUp {α : Type} {Q : α → Log δ → Prop} (h : impl.Of context)
    (hfree : ledger context = none) (e : Error) :
    Triple (At ledger context impl.hold) (destroy impl >>= fun _ => Action.fail e) Q
      (fun _ => Stands ledger) :=
  (triple_destroy h hfree).bind fun _ => .fail fun _ h => h

theorem triple_transfer (h : impl.Of context) (hopen : impl.handle ≠ none) :
    Triple (At ledger context impl.hold) (transfer impl)
      (fun _ => At ledger context impl.hold) E := by
  have hcontext : impl.context.getD 0 = context := by rw [h.context_eq]; rfl
  rw [transfer, hcontext]
  refine triple_note ?_
  simp [account, Impl.hold, Option.isSome_iff_ne_none.mpr hopen]

theorem triple_detachDrivers (interfaces : List Interface) :
    Triple (At ledger context { holding handle with config := true })
      (detachDrivers usb context handle interfaces)
      (fun _ => At ledger context { holding handle with config := true }) E := by
  induction interfaces with
  | nil => exact .pure fun _ h => h
  | cons interface rest ih =>
      refine triple_get_bind fun log => (triple_used _ rfl).bind fun _ => ?_
      refine Triple.bind (Q := fun _ =>
        At ledger context { holding handle with config := true }) ?_ fun _ => ih
      exact .ite (fun _ => triple_used _ rfl) fun _ => .pure fun _ h => h

theorem triple_detachAll (device : δ) (configValue : Int) :
    Triple (At ledger context (holding handle))
      (detachAll usb context handle device configValue)
      (fun _ => At ledger context (holding handle)) E := by
  refine triple_get_bind fun log => ?_
  cases usb.configByValue log device configValue with
  | none => exact triple_note rfl
  | some config =>
      refine (triple_note rfl).bind fun _ => ?_
      exact (triple_detachDrivers usb config.interfaces).bind fun _ => triple_note rfl

theorem triple_configure (device : δ) (configValue : Int) :
    Triple (At ledger context (holding handle))
      (configure usb context handle device configValue)
      (fun _ => At ledger context (holding handle)) E := by
  refine triple_get_bind fun log => (triple_used _ rfl).bind fun _ => ?_
  refine .ite (fun _ => .pure fun _ h => h) fun _ => ?_
  refine Triple.bind (Q := fun _ => At ledger context (holding handle)) ?_ fun _ => ?_
  · exact .ite (fun _ => triple_detachAll usb device configValue)
      fun _ => .pure fun _ h => h
  · refine triple_get_bind fun log => (triple_used _ rfl).bind fun _ => ?_
    exact .pure fun _ h => h

/-- What opening a transport comes to: it is one of a new context and holds what the
ledger says, or nothing is held that was not before. -/
def Opened (ledger : Nat → Option Hold) (impl : Impl) (log : Log δ) : Prop :=
  ∃ context, ledger context = none ∧ impl.Of context ∧
    At ledger context impl.hold log

theorem triple_claim (h : impl.Of context) (hfree : ledger context = none)
    (hhold : impl.hold = { handle := some handle }) :
    Triple (At ledger context impl.hold) (claim usb context handle impl)
      (Opened ledger) (fun _ => Stands ledger) := by
  have hhandle : impl.hold.handle = some handle := by rw [hhold]
  refine Triple.bind (Q := fun _ => At ledger context impl.hold) ?_ fun _ => ?_
  · exact .ite (fun _ => triple_used _ hhandle) fun _ => .pure fun _ h => h
  refine triple_get_bind fun log => .ite (fun _ => ?_) fun _ => ?_
  · exact (triple_used _ hhandle).bind fun _ => triple_giveUp h hfree _
  · have hclaim : account (some impl.hold) (.claimed handle : Event δ) =
        some (some { impl.hold with claimed := true }) := by
      rw [hhold]
      simp [account]
    refine (triple_note hclaim).bind fun _ => ?_
    refine (triple_used { impl.hold with claimed := true } hhandle).bind fun _ => ?_
    refine (triple_used { impl.hold with claimed := true } hhandle).bind fun _ => ?_
    refine .pure fun log hlog => ⟨context, hfree, ⟨h.context_eq, fun hnone => ?_⟩, hlog⟩
    change impl.handle = none at hnone
    change impl.handle = some handle at hhandle
    rw [hnone] at hhandle
    cases hhandle

theorem triple_openFound (device : δ) (hcontext : impl.context = some context)
    (hfree : ledger context = none) (hhold : impl.hold = {}) :
    Triple (At ledger context listing) (openFound usb context device impl)
      (Opened ledger) (fun _ => Stands ledger) := by
  have hclaimed : impl.claimed = false := congrArg Hold.claimed hhold
  have hof : impl.Of context := ⟨hcontext, fun _ => hclaimed⟩
  refine triple_openHandle_bind usb device (fun rc => ?_) fun handle => ?_
  · refine Triple.bind (Q := fun _ => At ledger context impl.hold) (triple_note ?_)
      fun _ => triple_giveUp hof hfree _
    rw [hhold]
    rfl
  · have hopened : ({ impl with handle := some handle } : Impl).Of context :=
      ⟨hcontext, fun hnone => nomatch hnone⟩
    have hheld : ({ impl with handle := some handle } : Impl).hold =
        { handle := some handle } := by
      rw [Impl.hold, hclaimed]
    refine (triple_configure usb device impl.configValue).bind fun rc => ?_
    refine Triple.bind
      (Q := fun _ => At ledger context ({ impl with handle := some handle } : Impl).hold)
      (triple_note ?_) fun _ => .ite (fun _ => triple_giveUp hopened hfree _)
        fun _ => triple_claim usb hopened hfree hheld
    rw [hheld]
    rfl

theorem triple_openTransport (id : DeviceId) :
    Triple (Stands ledger) (openTransport usb id) (Opened ledger)
      (fun _ => Stands ledger) := by
  refine (triple_initContext usb).bind fun context => ?_
  refine .of_state fun state hstate => ?_
  obtain ⟨hfree, hstate⟩ := hstate
  refine Triple.at_state ?_ hstate
  have hof : ({ context := some context } : Impl).Of context := ⟨rfl, fun _ => rfl⟩
  have hleave (e : Error) : Triple (At ledger context listing) (do
      note context .unlisted
      destroy { context := some context }
      Action.fail e : Action Error (Log δ) Impl) (Opened ledger) fun _ => Stands ledger :=
    Triple.bind (Q := fun _ => At ledger context {}) (triple_note rfl) fun _ =>
      triple_giveUp hof hfree e
  refine (triple_getDeviceList usb).bind fun result => ?_
  cases result with
  | error rc => exact triple_giveUp hof hfree _
  | ok devices =>
      refine (triple_findDevice usb id devices).bind fun found => ?_
      cases found with
      | none => exact hleave _
      | some device =>
          refine (triple_findMuxInterface usb device).bind fun found => ?_
          rcases found with e | _ | mux
          · exact hleave e
          · exact hleave _
          · refine Triple.bind (Q := fun _ => At ledger context listing) ?_ fun serial => ?_
            · refine (triple_getDeviceDescriptor usb device).bind fun result => ?_
              cases result with
              | error rc => exact .pure fun _ h => h
              | ok descriptor => exact triple_deviceSerial usb device descriptor
            · exact triple_openFound usb device rfl hfree rfl

end Life

end Held

end Ioscpp.Usb
