import Ioscpp.Error
import Ioscpp.Support.Action

/-!
# USB devices

`UsbTransport` finds a device in the list of `libusb` by its selector, and opens the
configuration and the interface of it that carry the mux.  `libusb` and the system are
functions of the log of the calls made so far.
-/

namespace Ioscpp.Usb

open Ioscpp.Support
open Ioscpp.Support.Action

/-! ## Descriptors -/

structure Endpoint where
  address : UInt8
  attributes : UInt8

structure Altsetting where
  interfaceClass : UInt8
  interfaceSubClass : UInt8
  interfaceProtocol : UInt8
  interfaceNumber : UInt8
  endpoints : List Endpoint

/-- An interface has a setting at least. -/
structure Interface where
  first : Altsetting
  others : List Altsetting

structure ConfigDescriptor where
  configurationValue : UInt8
  interfaces : List Interface

structure DeviceDescriptor where
  vendor : UInt16
  product : UInt16
  serialNumber : UInt8
  numConfigurations : UInt8

/-- A selector.  A zero vendor or product matches any. -/
structure DeviceId where
  vendorId : UInt16 := 0x05ac
  productId : UInt16 := 0
  serial : Bytes := []
  deriving DecidableEq, Repr

def kMuxInterfaceClass : UInt8 := 0xff
def kMuxInterfaceSubClass : UInt8 := 0xfe
def kMuxInterfaceProtocol : UInt8 := 0x02

/-- The mux interface, the configuration that carries it, and its bulk endpoints. -/
structure MuxInterface where
  configValue : Int := -1
  number : Int := -1
  endpointIn : UInt8 := 0
  endpointOut : UInt8 := 0
  deriving DecidableEq, Repr

def isMux (altsetting : Altsetting) : Bool :=
  altsetting.interfaceClass = kMuxInterfaceClass ∧
    altsetting.interfaceSubClass = kMuxInterfaceSubClass ∧
    altsetting.interfaceProtocol = kMuxInterfaceProtocol

/-- A bulk endpoint is the one of its direction; a later one replaces it. -/
def takeEndpoint (found : MuxInterface) (endpoint : Endpoint) : MuxInterface :=
  if endpoint.attributes &&& 0x03 ≠ 2 then found
  else if endpoint.address &&& 0x80 = 0x80 then
    { found with endpointIn := endpoint.address }
  else { found with endpointOut := endpoint.address }

def findMuxInConfig (config : ConfigDescriptor) : Option MuxInterface :=
  let altsetting := config.interfaces.findSome? fun interface =>
    (interface.first :: interface.others).find? isMux
  let found : MuxInterface :=
    match altsetting with
    | none => {}
    | some altsetting => altsetting.endpoints.foldl takeEndpoint
        { configValue := config.configurationValue.toNat
          number := altsetting.interfaceNumber.toNat }
  if found.number < 0 ∨ found.endpointIn = 0 ∨ found.endpointOut = 0 then none
  else some found

/-- Whether a descriptor can satisfy a selector. -/
def matchesId (descriptor : DeviceDescriptor) (id : DeviceId) : Bool :=
  (id.vendorId = 0 ∨ descriptor.vendor = id.vendorId) ∧
    (id.productId = 0 ∨ descriptor.product = id.productId)

/-- The trailing NULs are trimmed. -/
def trimNuls (text : Bytes) : Bytes :=
  (text.reverse.dropWhile (· = 0)).reverse

/-! ## `libusb` -/

/-- What a call does with what a context holds.  Handles are named by when they were
opened, on a device; `used none` is a call on no handle. -/
inductive Event (δ : Type) where
  /-- A call that failed and took nothing. -/
  | refused
  | initialized
  | exited
  | listed
  | unlisted
  /-- A device of the list was asked. -/
  | asked
  | configTaken
  | configFreed
  | opened (handle : Nat) (device : δ)
  | used (handle : Option Nat)
  | claimed (handle : Nat)
  | released (handle : Nat)
  | closed (handle : Nat)
  deriving DecidableEq

/-- The calls made so far, each under its context.  A context is named by when it was
initialized. -/
abbrev Log (δ : Type) := List (Nat × Event δ)

/-- What `libusb` answers, after the calls made so far: a code, or what was asked
for. -/
structure Libusb (δ : Type) where
  /-- Whether the library is built for Linux. -/
  linux : Bool
  strerror : Int → Bytes
  init : Log δ → Int
  deviceList : Log δ → Except Int (List δ)
  deviceDescriptor : Log δ → δ → Except Int DeviceDescriptor
  activeConfig : Log δ → δ → Option ConfigDescriptor
  config : Log δ → δ → Nat → Option ConfigDescriptor
  configByValue : Log δ → δ → Int → Option ConfigDescriptor
  openDevice : Log δ → δ → Int
  /-- The string of the descriptor; none when its length is not positive. -/
  serialText : Log δ → δ → UInt8 → Bytes
  configuration : Log δ → Option Int
  setConfiguration : Log δ → Int → Int
  kernelDriverActive : Log δ → Int → Int
  claimInterface : Log δ → Int → Int

/-- The state of a transport.  A context or a handle that is null is none. -/
structure Impl where
  context : Option Nat := none
  handle : Option Nat := none
  interfaceNumber : Int := -1
  configValue : Int := -1
  endpointIn : UInt8 := 0
  endpointOut : UInt8 := 0
  claimed : Bool := false
  serial : Bytes := []
  deriving DecidableEq, Repr

section Programs

variable {δ : Type} (usb : Libusb δ)

def fail (what : Bytes) (code : Int) : Error :=
  ⟨.transport, what ++ ascii ": " ++ usb.strerror code⟩

def note (context : Nat) (event : Event δ) : Action Error (Log δ) Unit :=
  modify fun log => log ++ [(context, event)]

/-- `libusb_init`. -/
def initContext : Action Error (Log δ) Nat := do
  let log ← get
  if usb.init log ≠ 0 then do
    note log.length .refused
    Action.fail (fail usb (ascii "libusb_init") (usb.init log))
  else do
    note log.length .initialized
    return log.length

/-- `libusb_get_device_list`. -/
def getDeviceList (context : Nat) : Action Error (Log δ) (Except Int (List δ)) := do
  let log ← get
  match usb.deviceList log with
  | .error rc => do
      note context .refused
      return .error rc
  | .ok devices => do
      note context .listed
      return .ok devices

/-- `libusb_get_device_descriptor`. -/
def getDeviceDescriptor (context : Nat) (device : δ) :
    Action Error (Log δ) (Except Int DeviceDescriptor) := do
  let log ← get
  note context .asked
  return usb.deviceDescriptor log device

/-- `libusb_open`. -/
def openHandle (context : Nat) (device : δ) : Action Error (Log δ) (Except Int Nat) := do
  let log ← get
  if usb.openDevice log device ≠ 0 then do
    note context .asked
    return .error (usb.openDevice log device)
  else do
    note context (.opened log.length device)
    return .ok log.length

/-- The mux interface of a configuration whose descriptor is read and freed. -/
def readConfig (context : Nat) (answer : Log δ → Option ConfigDescriptor) :
    Action Error (Log δ) (Option MuxInterface) := do
  let log ← get
  match answer log with
  | none => do
      note context .asked
      return none
  | some config => do
      note context .configTaken
      note context .configFreed
      return findMuxInConfig config

def deviceSerial (context : Nat) (device : δ) (descriptor : DeviceDescriptor) :
    Action Error (Log δ) Bytes :=
  if descriptor.serialNumber = 0 then return []
  else do
    match ← openHandle usb context device with
    | .error _ => return []
    | .ok handle => do
        let log ← get
        note context (.used (some handle))
        note context (.closed handle)
        return trimNuls (usb.serialText log device descriptor.serialNumber)

/-- The first device that the selector matches.  The serial is read, which opens the
device, only when one is asked for. -/
def findDevice (context : Nat) (id : DeviceId) :
    List δ → Action Error (Log δ) (Option δ)
  | [] => return none
  | device :: rest => do
      match ← getDeviceDescriptor usb context device with
      | .error _ => findDevice context id rest
      | .ok descriptor =>
          if !matchesId descriptor id then findDevice context id rest
          else if id.serial = [] then return some device
          else do
            let serial ← deviceSerial usb context device descriptor
            if serial = id.serial then return some device
            else findDevice context id rest

/-- The configurations from the last one down. -/
def searchConfigs (context : Nat) (device : δ) :
    Nat → Action Error (Log δ) (Option MuxInterface)
  | 0 => return none
  | count + 1 => do
      match ← readConfig context fun log => usb.config log device count with
      | some found => return some found
      | none => searchConfigs context device count

/-- The active configuration is preferred. -/
def findMuxInterface (context : Nat) (device : δ) :
    Action Error (Log δ) (Except Error (Option MuxInterface)) := do
  match ← readConfig context fun log => usb.activeConfig log device with
  | some found => return .ok (some found)
  | none => do
      match ← getDeviceDescriptor usb context device with
      | .error rc =>
          return .error (fail usb (ascii "libusb_get_device_descriptor") rc)
      | .ok descriptor => do
          let found ← searchConfigs usb context device descriptor.numConfigurations.toNat
          return .ok found

/-! ## Discovery -/

/-- `UsbTransport::is_present`. -/
def isPresent (id : DeviceId) : Action Error (Log δ) Bool := do
  let context ← initContext usb
  match ← getDeviceList usb context with
  | .error _ => do
      note context .exited
      return false
  | .ok devices => do
      let found ← findDevice usb context id devices
      note context .unlisted
      note context .exited
      return found.isSome

/-- The devices with a mux interface whose serial can be read. -/
def listLoop (context : Nat) : List δ → Action Error (Log δ) (List DeviceId)
  | [] => return []
  | device :: rest => do
      match ← getDeviceDescriptor usb context device with
      | .error _ => listLoop context rest
      | .ok descriptor => do
          match ← findMuxInterface usb context device with
          | .ok (some _) => do
              let serial ← deviceSerial usb context device descriptor
              if serial = [] then listLoop context rest
              else do
                let found ← listLoop context rest
                return ⟨descriptor.vendor, descriptor.product, serial⟩ :: found
          | _ => listLoop context rest

/-- `UsbTransport::list`. -/
def list : Action Error (Log δ) (List DeviceId) := do
  let context ← initContext usb
  match ← getDeviceList usb context with
  | .error rc => do
      note context .exited
      Action.fail (fail usb (ascii "libusb_get_device_list") rc)
  | .ok devices => do
      let found ← listLoop usb context devices
      note context .unlisted
      note context .exited
      return found

/-! ## The life of a transport -/

/-- Gives the handle back, and the interface before it. -/
def closeHandle (impl : Impl) : Action Error (Log δ) Unit :=
  match impl.handle with
  | none => return ()
  | some handle => do
      (if impl.claimed then note (impl.context.getD 0) (.released handle)
        else Pure.pure ())
      note (impl.context.getD 0) (.closed handle)

/-- `UsbTransport::close`. -/
def close (impl : Impl) : Action Error (Log δ) Impl := do
  closeHandle impl
  return { impl with handle := none, claimed := false }

/-- `~Impl`. -/
def destroy (impl : Impl) : Action Error (Log δ) Unit := do
  closeHandle impl
  match impl.context with
  | none => return ()
  | some context => note context .exited

/-- Detaches the kernel drivers of the interfaces. -/
def detachDrivers (context handle : Nat) : List Interface → Action Error (Log δ) Unit
  | [] => return ()
  | interface :: rest => do
      let log ← get
      note context (.used (some handle))
      (if usb.kernelDriverActive log interface.first.interfaceNumber.toNat = 1 then
          note context (.used (some handle))
        else Pure.pure ())
      detachDrivers context handle rest

/-- Changing the configuration fails while a kernel driver holds an interface of it,
so each one is detached first. -/
def detachAll (context handle : Nat) (device : δ) (configValue : Int) :
    Action Error (Log δ) Unit := do
  let log ← get
  match usb.configByValue log device configValue with
  | none => note context .asked
  | some config => do
      note context .configTaken
      detachDrivers usb context handle config.interfaces
      note context .configFreed

/-- Selects the configuration that carries the interface: a code. -/
def configure (context handle : Nat) (device : δ) (configValue : Int) :
    Action Error (Log δ) Int := do
  let log ← get
  note context (.used (some handle))
  if usb.configuration log = some configValue then return 0
  else do
    (if usb.linux then detachAll usb context handle device configValue
      else Pure.pure ())
    let log ← get
    note context (.used (some handle))
    return usb.setConfiguration log configValue

/-- Claims the interface of a handle, and clears the halts of its endpoints. -/
def claim (context handle : Nat) (impl : Impl) : Action Error (Log δ) Impl := do
  (if usb.linux then note context (.used (some handle)) else Pure.pure ())
  let log ← get
  if usb.claimInterface log impl.interfaceNumber ≠ 0 then do
    note context (.used (some handle))
    destroy impl
    Action.fail (fail usb (ascii "libusb_claim_interface")
      (usb.claimInterface log impl.interfaceNumber))
  else do
    note context (.claimed handle)
    note context (.used (some handle))
    note context (.used (some handle))
    return { impl with claimed := true }

/-- Opens the device: its handle, its configuration, its interface. -/
def openFound (context : Nat) (device : δ) (impl : Impl) :
    Action Error (Log δ) Impl := do
  match ← openHandle usb context device with
  | .error rc => do
      note context .unlisted
      destroy impl
      Action.fail (fail usb (ascii "libusb_open") rc)
  | .ok handle => do
      let rc ← configure usb context handle device impl.configValue
      note context .unlisted
      if rc ≠ 0 then do
        destroy { impl with handle := some handle }
        Action.fail (fail usb (ascii "libusb_set_configuration") rc)
      else claim usb context handle { impl with handle := some handle }

/-- The serial of the device that is opened. -/
def serialOf (context : Nat) (device : δ) : Action Error (Log δ) Bytes := do
  match ← getDeviceDescriptor usb context device with
  | .error _ => return []
  | .ok descriptor => deviceSerial usb context device descriptor

/-- `UsbTransport::open`. -/
def openTransport (id : DeviceId) : Action Error (Log δ) Impl := do
  let context ← initContext usb
  let impl : Impl := { context := some context }
  match ← getDeviceList usb context with
  | .error rc => do
      destroy impl
      Action.fail (fail usb (ascii "libusb_get_device_list") rc)
  | .ok devices => do
      match ← findDevice usb context id devices with
      | none => do
          note context .unlisted
          destroy impl
          Action.fail ⟨.transport, ascii "no USB device matching the given id"⟩
      | some device => do
          match ← findMuxInterface usb context device with
          | .error e => do
              note context .unlisted
              destroy impl
              Action.fail e
          | .ok none => do
              note context .unlisted
              destroy impl
              Action.fail ⟨.transport, ascii "the device has no mux USB interface"⟩
          | .ok (some mux) => do
              let serial ← serialOf usb context device
              openFound usb context device { impl with
                interfaceNumber := mux.number
                configValue := mux.configValue
                endpointIn := mux.endpointIn
                endpointOut := mux.endpointOut
                serial := serial }

/-- The transfers of a read or a write, on the handle of the transport. -/
def transfer (impl : Impl) : Action Error (Log δ) Unit :=
  note (impl.context.getD 0) (.used impl.handle)

end Programs

end Ioscpp.Usb
