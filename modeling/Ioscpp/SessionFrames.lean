import Ioscpp.TransportCalls

/-!
# The frames that a session takes

What a session takes of its transport is read off from the calls that the
transport got: the bytes that the reads returned are whole frames, and behind
them at most the beginning of one.

## Main results

- `Session.took_receive`: a call of `receive` takes the bytes of one whole
  frame, and returns that frame; when it fails it has taken no whole frame.
- `Session.wholeFrames_wire`: the frames in the bytes that were read are the frames
  that were received, in their order.
- `Session.exists_run_receive_iff`: a call of `receive` returns a frame exactly
  when the link has a whole one to come.
-/

namespace Ioscpp

open Ioscpp.Support
open Ioscpp.Protocol

/-! ## The bytes that were read -/

namespace Recorded

/-- The bytes that the reads returned. -/
def bytesRead (calls : List TransportCall) : Bytes :=
  calls.flatMap fun
    | .read (.ok bytes) => bytes
    | _ => []

variable {τ : Type}

/-- Only reads were made since `base`, and they returned these bytes. -/
def Took (base : List TransportCall) (bytes : Bytes) (state : Recorded τ) :
    Prop :=
  ∃ more, state.calls = base ++ more ∧
    (∀ call ∈ more, ∃ result, call = .read result) ∧ bytesRead more = bytes

theorem bytesRead_append (first second : List TransportCall) :
    bytesRead (first ++ second) = bytesRead first ++ bytesRead second :=
  List.flatMap_append

theorem Took.refl (state : Recorded τ) : Took state.calls [] state :=
  ⟨[], (List.append_nil _).symm, by simp, rfl⟩

/-- A transport returns no more than was asked for, as `Transport::read` promises with
the size of its buffer. -/
def Bounded (τ : Type) [Transport τ] : Prop :=
  ∀ (count : Nat) (state next : τ) (chunk : Bytes),
    (Transport.read count).run state = (.ok chunk, next) → chunk.length ≤ count

variable [Transport τ] {base : List TransportCall} {front : Bytes}

private theorem triple_read (hbounded : Bounded τ) (count : Nat) :
    Action.Triple (Took base front)
      (Transport.read count : Action Error (Recorded τ) Bytes)
      (fun chunk state => chunk.length ≤ count ∧ Took base (front ++ chunk) state)
      (fun _ state => Took base front state) := by
  rintro state ⟨more, hcalls, hreads, hbytes⟩
  rw [run_read]
  rcases hrun : (Transport.read count).run state.transport with
    ⟨fault | chunk, next⟩
  · refine ⟨more ++ [.read (.error fault)], ?_, ?_, ?_⟩
    · rw [hcalls, List.append_assoc]
    · rw [List.forall_mem_append, List.forall_mem_singleton]
      exact ⟨hreads, _, rfl⟩
    · rw [bytesRead_append, hbytes]
      exact List.append_nil _
  · refine ⟨hbounded count _ _ _ hrun, more ++ [.read (.ok chunk)], ?_, ?_, ?_⟩
    · rw [hcalls, List.append_assoc]
    · rw [List.forall_mem_append, List.forall_mem_singleton]
      exact ⟨hreads, _, rfl⟩
    · rw [bytesRead_append, hbytes]
      exact congrArg (front ++ ·) (List.append_nil _)

/-- Reading exactly takes what it returns; a failure has taken less. -/
theorem triple_readExact (hbounded : Bounded τ) (ended : Error) (count : Nat) :
    Action.Triple (Took base front)
      (Transport.readExact ended count : Action Error (Recorded τ) Bytes)
      (fun bytes state => bytes.length = count ∧
        Took base (front ++ bytes) state)
      (fun _ state => ∃ taken : Bytes, taken.length < count ∧
        Took base (front ++ taken) state) := by
  have hloop (fuel : Nat) (data : Bytes) (hdata : data.length ≤ count) :
      Action.Triple (Took base (front ++ data))
        (Transport.readExactLoop ended count fuel data :
          Action Error (Recorded τ) Bytes)
        (fun bytes state => bytes.length = count ∧
          Took base (front ++ bytes) state)
        (fun _ state => ∃ taken : Bytes, taken.length < count ∧
          Took base (front ++ taken) state) := by
    induction fuel generalizing data with
    | zero =>
        refine Action.Triple.ite (fun hle => Action.Triple.pure fun state h => ?_)
          fun hlt => Action.Triple.lift (fun _ h => by cases h) fun _ _ state h => ?_
        · exact ⟨Nat.le_antisymm hdata hle, h⟩
        · exact ⟨data, Nat.not_le.mp hlt, h⟩
    | succ fuel ih =>
        refine Action.Triple.ite (fun hle => Action.Triple.pure fun state h => ?_)
          fun hlt => ?_
        · exact ⟨Nat.le_antisymm hdata hle, h⟩
        · have hmissing (state : Recorded τ) (h : Took base (front ++ data) state) :
              ∃ taken : Bytes, taken.length < count ∧
                Took base (front ++ taken) state :=
            ⟨data, Nat.not_le.mp hlt, h⟩
          refine ((triple_read hbounded _).imp_post (fun _ _ h => h)
            fun _ state h => hmissing state h).bind fun chunk => ?_
          refine Action.Triple.ite (fun hnil => Action.Triple.fail ?_) fun _ => ?_
          · rintro state ⟨-, h⟩
            rw [hnil, List.append_nil] at h
            exact hmissing state h
          · refine Action.Triple.of_state fun state h => ?_
            refine (ih (data ++ chunk) ?_).imp_pre ?_
            · rw [List.length_append]
              omega
            · rintro _ rfl
              rw [← List.append_assoc]
              exact h.2
  refine (hloop count [] (Nat.zero_le _)).imp_pre fun state h => ?_
  rw [List.append_nil]
  exact h

/-- The calls of a transport are noted, and it answers as it does. -/
theorem Bounded.recorded (h : Bounded τ) : Bounded (Recorded τ) := by
  intro count state next chunk hrun
  rw [run_read] at hrun
  have hchunk : ((Transport.read count).run state.transport).1 = .ok chunk :=
    (Prod.ext_iff.mp hrun).1
  exact h count state.transport ((Transport.read count).run state.transport).2 chunk
    (Prod.ext hchunk rfl)

end Recorded

/-- A script returns no more than was asked for. -/
theorem ScriptedTransport.bounded : Recorded.Bounded ScriptedTransport := by
  intro count state next chunk hrun
  obtain ⟨other, houtcome⟩ := ScriptedTransport.run_read count state
  rw [hrun] at houtcome
  rcases houtcome.result with hok | ⟨-, e, herror⟩
  · cases hok
    exact houtcome.size
  · cases herror

namespace Session

/-- The bytes start with a whole frame. -/
def HoldsFrame (version : UInt32) (bytes : Bytes) : Prop :=
  ∃ front frame, front <+: bytes ∧ IsFrame version frame front

theorem HoldsFrame.append {version : UInt32} {bytes : Bytes}
    (h : HoldsFrame version bytes) (more : Bytes) :
    HoldsFrame version (bytes ++ more) := by
  obtain ⟨front, frame, hfront, hframe⟩ := h
  exact ⟨front, frame, hfront.trans (List.prefix_append _ _), hframe⟩

section Receiving

variable {version : UInt32} {headerBytes bytes front : Bytes} {frame : Frame}
  {header : MuxHeader}

/-- The header of a whole frame is the one that was read. -/
private theorem decode_of_isFrame (hsize : headerBytes.length = MuxHeader.wireSize version)
    (hfront : front <+: headerBytes ++ bytes) (hframe : IsFrame version frame front) :
    MuxHeader.decode headerBytes version = .ok frame.header := by
  obtain ⟨rest, heq⟩ := hfront
  have htake : front.take (MuxHeader.wireSize version) = headerBytes := by
    rw [← List.take_append_of_le_length hframe.lower, heq, List.take_left' hsize]
  rw [← htake]
  exact hframe.header

/-- Behind a header that is not decoded there is no frame. -/
private theorem not_holdsFrame_of_error {fault : Fault Error}
    (hsize : headerBytes.length = MuxHeader.wireSize version)
    (hdecode : MuxHeader.decode headerBytes version = .error fault) :
    ¬ HoldsFrame version (headerBytes ++ bytes) := by
  rintro ⟨front, frame, hfront, hframe⟩
  rw [decode_of_isFrame hsize hfront hframe] at hdecode
  cases hdecode

/-- The length of a frame is the one in the header that was read, and is in range. -/
private theorem length_of_isFrame (hsize : headerBytes.length = MuxHeader.wireSize version)
    (hdecode : MuxHeader.decode headerBytes version = .ok header)
    (hfront : front <+: headerBytes ++ bytes) (hframe : IsFrame version frame front) :
    front.length = header.length.toNat ∧
      MuxHeader.wireSize version ≤ header.length.toNat ∧
      header.length.toNat ≤ kMaxFrameSize := by
  have heq := (decode_of_isFrame hsize hfront hframe).symm.trans hdecode
  cases heq
  have hlength := hframe.length
  have hlower := hframe.lower
  have hupper := hframe.upper
  exact ⟨hlength.symm, by omega, by omega⟩

/-- A header and a payload of its length are a frame. -/
private theorem isFrame_of_payload {payload : Bytes}
    (hsize : headerBytes.length = MuxHeader.wireSize version)
    (hdecode : MuxHeader.decode headerBytes version = .ok header)
    (hlower : MuxHeader.wireSize version ≤ header.length.toNat)
    (hupper : header.length.toNat ≤ kMaxFrameSize)
    (hlength : payload.length = header.length.toNat - MuxHeader.wireSize version) :
    IsFrame version ⟨header, payload⟩ (headerBytes ++ payload) := by
  have hwhole : (headerBytes ++ payload).length = header.length.toNat := by
    rw [List.length_append]
    omega
  refine ⟨?_, List.drop_left' hsize, hwhole.symm, ?_, ?_⟩
  · rw [List.take_left' hsize, hdecode]
  · omega
  · omega

end Receiving

section Taken

variable {τ : Type} [Transport τ]

/-- Reading takes the bytes that it returns, or fewer than it was asked for. -/
private theorem took_readExact (hbounded : Recorded.Bounded τ)
    (calls : List TransportCall) (session : Session) (front : Bytes)
    (count : Nat) :
    Action.Triple
      (fun state : Recorded τ × Session => state.2 = session ∧
        Recorded.Took calls front state.1)
      (onTransport (Transport.readExact closedMidFrame count))
      (fun bytes state => bytes.length = count ∧ state.2 = session ∧
        Recorded.Took calls (front ++ bytes) state.1)
      (fun _ state => ∃ taken : Bytes, taken.length < count ∧
        Recorded.Took calls (front ++ taken) state.1) := by
  refine Action.Triple.zoom fun state h => ?_
  refine ((Recorded.triple_readExact hbounded closedMidFrame count).imp_pre
    fun part hpart => hpart ▸ h.2).imp_post ?_ fun _ _ h => h
  exact fun bytes part hpart => ⟨hpart.1, h.1, hpart.2⟩

/-- Receiving takes the bytes of one whole frame, and no more. A failure has taken bytes
that hold none. -/
theorem took_receive
    (hbounded : Recorded.Bounded τ) (link : Recorded τ) (session : Session) :
    Action.Triple (fun state => state = (link, session)) receive
      (fun frame state => state.2.version = session.version ∧
        ∃ bytes, Recorded.Took link.calls bytes state.1 ∧
          IsFrame session.version frame bytes)
      (fun _ state => ∃ bytes, Recorded.Took link.calls bytes state.1 ∧
        ¬ HoldsFrame session.version bytes) := by
  refine Action.Triple.get_bind fun state hstate => ?_
  subst hstate
  dsimp only
  have hheaderRun : Action.Triple (fun state => state = (link, session))
      (onTransport (Transport.readExact closedMidFrame
        (MuxHeader.wireSize session.version)))
      (fun bytes state => bytes.length = MuxHeader.wireSize session.version ∧
        state.2 = session ∧ Recorded.Took link.calls bytes state.1)
      (fun _ state => ∃ bytes, Recorded.Took link.calls bytes state.1 ∧
        ¬ HoldsFrame session.version bytes) := by
    refine (took_readExact hbounded link.calls session [] _).imp ?_
      (fun _ _ h => h) ?_
    · rintro _ rfl
      exact ⟨rfl, Recorded.Took.refl link⟩
    · rintro fault state ⟨taken, hshort, htook⟩
      refine ⟨taken, htook, ?_⟩
      rintro ⟨front, frame, hfront, hframe⟩
      have hlower := hframe.lower
      have hle := hfront.length_le
      omega
  refine hheaderRun.bind fun headerBytes => ?_
  refine Action.Triple.of_state fun state htaken => ?_
  obtain ⟨hsize, hsession, htook⟩ := htaken
  have htook' : Recorded.Took link.calls (headerBytes ++ []) state.1 := by
    rwa [List.append_nil]
  cases hdecode : MuxHeader.decode headerBytes session.version with
  | error fault =>
      refine Action.Triple.bind (Q := fun _ _ => False)
        (Action.Triple.lift (fun _ h => by cases h) ?_) fun _ _ h => h.elim
      rintro _ _ _ rfl
      exact ⟨_, htook', not_holdsFrame_of_error hsize hdecode⟩
  | ok header =>
      refine Action.Triple.lift_ok_bind (Action.Triple.ite (fun hrange => ?_)
        fun hrange => ?_)
      · refine Action.Triple.fail ?_
        rintro _ rfl
        refine ⟨_, htook', ?_⟩
        rintro ⟨front, frame, hfront, hframe⟩
        have hlength := length_of_isFrame hsize hdecode hfront hframe
        omega
      · have hpayload := (took_readExact hbounded link.calls session headerBytes
          (header.length.toNat - MuxHeader.wireSize session.version)).imp_pre
          fun other (h : other = state) => h ▸ ⟨hsession, htook⟩
        refine (hpayload.imp_post (fun _ _ h => h) ?_).bind fun payload => ?_
        · rintro fault other ⟨taken, hshort, htaken⟩
          refine ⟨_, htaken, ?_⟩
          rintro ⟨front, frame, hfront, hframe⟩
          have hlength := length_of_isFrame hsize hdecode hfront hframe
          have hle := hfront.length_le
          rw [List.length_append] at hle
          omega
        · refine Action.Triple.bind (Q := fun _ other =>
            payload.length = header.length.toNat -
              MuxHeader.wireSize session.version ∧
              other.2.version = session.version ∧
              Recorded.Took link.calls (headerBytes ++ payload) other.1)
            (Action.Triple.modify ?_) fun _ => Action.Triple.pure ?_
          · rintro other ⟨hlength, rfl, htaken⟩
            exact ⟨hlength, rfl, htaken⟩
          · rintro other ⟨hlength, hversion, htaken⟩
            exact ⟨hversion, _, htaken,
              isFrame_of_payload hsize hdecode (by omega) (by omega) hlength⟩

end Taken

/-! ## The frames in the bytes that were read -/

/-- The frame at the front of the bytes, when it is there whole. -/
def frameAt (version : UInt32) (bytes : Bytes) : Option Frame :=
  match MuxHeader.decode (bytes.take (MuxHeader.wireSize version)) version with
  | .ok header =>
      if MuxHeader.wireSize version ≤ header.length.toNat ∧
          header.length.toNat ≤ kMaxFrameSize ∧
          header.length.toNat ≤ bytes.length then
        some ⟨header, (bytes.take header.length.toNat).drop
          (MuxHeader.wireSize version)⟩
      else none
  | .error _ => none

/-- The whole frames at the front of the bytes.  A frame has a byte at least, so
`fuel` is the number of bytes. -/
def framesIn (version : UInt32) : Nat → Bytes → List Frame
  | 0, _ => []
  | fuel + 1, bytes =>
      match frameAt version bytes with
      | some frame => frame ::
          framesIn version fuel (bytes.drop frame.header.length.toNat)
      | none => []

/-- The frames in the bytes, up to where one is not whole. -/
def wholeFrames (version : UInt32) (bytes : Bytes) : List Frame :=
  framesIn version bytes.length bytes

/-- The bytes of these frames, one behind the other. -/
inductive Wire (version : UInt32) : List Frame → Bytes → Prop where
  | nil : Wire version [] []
  | cons {frame : Frame} {front bytes : Bytes} {frames : List Frame}
      (hframe : IsFrame version frame front) (hrest : Wire version frames bytes) :
      Wire version (frame :: frames) (front ++ bytes)

section Frames

variable {version : UInt32} {frame : Frame} {frames : List Frame}
  {bytes front tail : Bytes}

theorem Wire.append (h : Wire version frames bytes)
    (hframe : IsFrame version frame front) :
    Wire version (frames ++ [frame]) (bytes ++ front) := by
  induction h with
  | nil =>
      have hone := Wire.cons hframe Wire.nil
      rwa [List.append_nil] at hone
  | cons hfirst _ ih =>
      rw [List.append_assoc]
      exact .cons hfirst ih

theorem not_holdsFrame_nil : ¬ HoldsFrame version [] := by
  rintro ⟨front, frame, hfront, hframe⟩
  have hlower := hframe.lower
  have hle : front.length ≤ 0 := hfront.length_le
  have hpos := MuxHeader.wireSize_pos version
  omega

/-- A whole frame at the front is found. -/
theorem frameAt_append (h : IsFrame version frame front) (rest : Bytes) :
    frameAt version (front ++ rest) = some frame := by
  have hheader : MuxHeader.decode ((front ++ rest).take
      (MuxHeader.wireSize version)) version = .ok frame.header := by
    rw [List.take_append_of_le_length h.lower]
    exact h.header
  rw [frameAt, hheader]
  dsimp only
  rw [h.length, if_pos ⟨h.lower, h.upper, by simp⟩, List.take_left, h.payload]

/-- What is found is a whole frame. -/
theorem holdsFrame_of_frameAt (h : frameAt version bytes = some frame) :
    HoldsFrame version bytes := by
  have hpos := MuxHeader.wireSize_pos version
  rw [frameAt] at h
  split at h
  · rename_i header hheader
    split at h
    · rename_i hrange
      cases h
      obtain ⟨hlower, hupper, hle⟩ := hrange
      have hlength : (bytes.take header.length.toNat).length =
          header.length.toNat := by
        rw [List.length_take]
        omega
      refine ⟨bytes.take header.length.toNat, ⟨header, _⟩, List.take_prefix _ _,
        ?_, rfl, hlength.symm, by omega, by omega⟩
      rw [List.take_take, Nat.min_eq_left hlower]
      exact hheader
    · cases h
  · cases h

/-- Frames that are read one behind the other are found, up to the beginning of
one that is not whole. -/
theorem wholeFrames_wire (h : Wire version frames bytes)
    (htail : ¬ HoldsFrame version tail) :
    wholeFrames version (bytes ++ tail) = frames := by
  have hin (fuel : Nat) (hfuel : (bytes ++ tail).length ≤ fuel) :
      framesIn version fuel (bytes ++ tail) = frames := by
    have hnone : frameAt version tail = none := by
      cases hfound : frameAt version tail with
      | none => rfl
      | some frame => exact absurd (holdsFrame_of_frameAt hfound) htail
    induction h generalizing fuel with
    | nil =>
        cases fuel with
        | zero => rfl
        | succ fuel =>
            rw [List.nil_append, framesIn, hnone]
    | cons hframe _ ih =>
        have hlower := hframe.lower
        have hpos := MuxHeader.wireSize_pos version
        rw [List.append_assoc] at hfuel ⊢
        cases fuel with
        | zero =>
            rw [List.length_append] at hfuel
            omega
        | succ fuel =>
            rw [framesIn, frameAt_append hframe]
            dsimp only
            rw [hframe.length, List.drop_left]
            refine congrArg _ (ih fuel ?_)
            rw [List.length_append] at hfuel
            omega
  exact hin _ (Nat.le_refl _)

end Frames

/-! ## The frames to come -/

/-- The transport answers the reads of as many bytes as these with them, in any
pieces. -/
inductive Yields {τ : Type} [Transport τ] : τ → Bytes → τ → Prop where
  | done (state : τ) : Yields state [] state
  | read {state middle next : τ} {chunk rest : Bytes} (hchunk : chunk ≠ [])
      (hread : (Transport.read (chunk ++ rest).length).run state =
        (.ok chunk, middle))
      (hrest : Yields middle rest next) : Yields state (chunk ++ rest) next

/-- The transport has a whole frame to come: its header, and then the rest. -/
def FrameComes {τ : Type} [Transport τ] (version : UInt32) (state : τ) : Prop :=
  ∃ frame bytes middle next, IsFrame version frame bytes ∧
    Yields state (bytes.take (MuxHeader.wireSize version)) middle ∧
    Yields middle (bytes.drop (MuxHeader.wireSize version)) next

section Coming

variable {τ : Type} [Transport τ] {state next : τ} {bytes : Bytes}

theorem Yields.eq_of_nil (h : Yields state [] next) : next = state := by
  generalize hbytes : ([] : Bytes) = bytes at h
  cases h with
  | done => rfl
  | read hchunk =>
      exact absurd (List.append_eq_nil_iff.mp hbytes.symm).1 hchunk

/-- What a script without failures yields is at the front of it. -/
theorem Yields.remaining {state next : ScriptedTransport} (h : Yields state bytes next)
    (hclean : state.Clean) :
    state.remaining = bytes ++ next.remaining ∧ next.Clean := by
  induction h with
  | done => exact ⟨rfl, hclean⟩
  | @read state middle next chunk rest hchunk hread hrest ih =>
      obtain ⟨chunk', houtcome⟩ :=
        ScriptedTransport.run_read (chunk ++ rest).length state
      rw [hread] at houtcome
      cases houtcome.clean hclean
      obtain ⟨hremaining, hnext⟩ := ih (houtcome.delivers.clean hclean)
      refine ⟨?_, hnext⟩
      rw [houtcome.delivers.remaining, hremaining, List.append_assoc]

/-- Reading exactly returns what the transport yields. -/
theorem run_readExact_eq_ok_iff (hbounded : Recorded.Bounded τ) (ended : Error)
    (count : Nat) :
    (Transport.readExact ended count).run state = (.ok bytes, next) ↔
      bytes.length = count ∧ Yields state bytes next := by
  have hloop (fuel : Nat) (data : Bytes) (state : τ) (hdata : data.length ≤ count)
      (hfuel : count ≤ data.length + fuel) :
      (Transport.readExactLoop ended count fuel data).run state =
          (.ok bytes, next) ↔
        bytes.length = count ∧ ∃ rest, bytes = data ++ rest ∧
          Yields state rest next := by
    have hwhole (data : Bytes) (state : τ) (hdata : data.length ≤ count)
        (hle : count ≤ data.length) :
        (pure data : Action Error τ Bytes).run state = (.ok bytes, next) ↔
          bytes.length = count ∧ ∃ rest, bytes = data ++ rest ∧
            Yields state rest next := by
      constructor
      · intro h
        cases h
        exact ⟨Nat.le_antisymm hdata hle, [], (List.append_nil _).symm, .done _⟩
      · rintro ⟨hlength, rest, rfl, hrest⟩
        rw [List.length_append] at hlength
        obtain rfl : rest = [] := List.length_eq_zero_iff.mp (by omega)
        rw [hrest.eq_of_nil, List.append_nil]
        rfl
    induction fuel generalizing data state with
    | zero =>
        rw [Transport.readExactLoop, if_pos (by omega)]
        exact hwhole data state hdata (by omega)
    | succ fuel ih =>
        rw [Transport.readExactLoop]
        split
        · exact hwhole data state hdata ‹_›
        · rename_i hmissing
          constructor
          · intro h
            rcases hread : (Transport.read (count - data.length)).run state with
              ⟨fault | chunk, middle⟩
            · rw [Action.run_bind_error hread] at h
              cases h
            · rw [Action.run_bind_ok hread] at h
              split at h
              · cases h
              · rename_i hchunk
                have hsize := hbounded _ _ _ _ hread
                have hpos := List.length_pos_iff.mpr hchunk
                obtain ⟨hlength, rest, hbytes, hrest⟩ := (ih (data ++ chunk) middle
                  (by rw [List.length_append]; omega)
                  (by rw [List.length_append]; omega)).mp h
                rw [List.append_assoc] at hbytes
                have hcount : count - data.length = (chunk ++ rest).length := by
                  rw [← hlength, hbytes, List.length_append, Nat.add_sub_cancel_left]
                rw [hcount] at hread
                exact ⟨hlength, chunk ++ rest, hbytes, .read hchunk hread hrest⟩
          · rintro ⟨hlength, rest, rfl, hrest⟩
            rw [List.length_append] at hlength
            cases hrest with
            | done =>
                rw [List.length_nil] at hlength
                omega
            | @read _ middle _ chunk rest hchunk hread hrest =>
                have hpos := List.length_pos_iff.mpr hchunk
                have hsize : (chunk ++ rest).length =
                    chunk.length + rest.length := List.length_append
                have hcount : count - data.length = (chunk ++ rest).length := by
                  omega
                rw [hcount, Action.run_bind_ok hread, if_neg hchunk]
                refine (ih (data ++ chunk) middle (by rw [List.length_append]; omega)
                  (by rw [List.length_append]; omega)).mpr ⟨?_, rest, ?_, hrest⟩
                · rw [List.length_append]
                  omega
                · rw [List.append_assoc]
  refine (hloop count [] state (Nat.zero_le _) (by simp)).trans
    (and_congr_right fun _ => ⟨?_, fun h => ⟨bytes, rfl, h⟩⟩)
  rintro ⟨rest, rfl, hrest⟩
  exact hrest

/-- A call of `receive` returns a frame exactly when one is to come: when the reads of
the transport, as it stands, bring the bytes of one. -/
theorem exists_run_receive_iff (hbounded : Recorded.Bounded τ) (session : Session) :
    (∃ frame after, receive.run (state, session) = (.ok frame, after)) ↔
      FrameComes session.version state := by
  have hread {state next : τ} {count : Nat} {bytes : Bytes}
      (h : (Transport.readExact closedMidFrame count).run state =
        (.ok bytes, next)) :
      (onTransport (Transport.readExact closedMidFrame count)).run
        (state, session) = (.ok bytes, next, session) := by
    rw [onTransport, Action.run_zoom, h]
  have hfail {state next : τ} {count : Nat} {fault : Fault Error}
      (h : (Transport.readExact closedMidFrame count).run state =
        (.error fault, next)) :
      (onTransport (Transport.readExact closedMidFrame count)).run
        (state, session) = (.error fault, next, session) := by
    rw [onTransport, Action.run_zoom, h]
  constructor
  · rintro ⟨frame, after, hrun⟩
    rw [receive, Action.run_bind_ok (Action.run_get _)] at hrun
    dsimp only at hrun
    rcases hheader : (Transport.readExact closedMidFrame
        (MuxHeader.wireSize session.version)).run state with
      ⟨fault | headerBytes, middle⟩
    · rw [Action.run_bind_error (hfail hheader)] at hrun
      cases hrun
    rw [Action.run_bind_ok (hread hheader)] at hrun
    obtain ⟨hsize, hyields⟩ := (run_readExact_eq_ok_iff hbounded _ _).mp hheader
    cases hdecode : MuxHeader.decode headerBytes session.version with
    | error fault =>
        rw [hdecode, Action.run_bind_error (Action.run_lift _ _)] at hrun
        cases hrun
    | ok header =>
        rw [hdecode, Action.run_bind_ok (Action.run_lift _ _)] at hrun
        split at hrun
        · cases hrun
        rename_i hrange
        rcases hpayload : (Transport.readExact closedMidFrame
            (header.length.toNat - MuxHeader.wireSize session.version)).run
              middle with ⟨fault | payload, next⟩
        · rw [Action.run_bind_error (hfail hpayload)] at hrun
          cases hrun
        obtain ⟨hlength, hrest⟩ := (run_readExact_eq_ok_iff hbounded _ _).mp
          hpayload
        refine ⟨⟨header, payload⟩, headerBytes ++ payload, middle, next,
          isFrame_of_payload hsize hdecode (by omega) (by omega) hlength, ?_, ?_⟩
        · rwa [List.take_left' hsize]
        · rwa [List.drop_left' hsize]
  · rintro ⟨frame, bytes, middle, next, hframe, hheader, hpayload⟩
    have hlower := hframe.lower
    have hupper := hframe.upper
    have hlength := hframe.length
    rw [hframe.payload] at hpayload
    have hsize : (bytes.take (MuxHeader.wireSize session.version)).length =
        MuxHeader.wireSize session.version := by
      rw [List.length_take]
      omega
    have hmissing : frame.payload.length =
        frame.header.length.toNat - MuxHeader.wireSize session.version := by
      rw [← hframe.payload, List.length_drop]
      omega
    have hfirst := hread ((run_readExact_eq_ok_iff hbounded closedMidFrame
      (MuxHeader.wireSize session.version)).mpr ⟨hsize, hheader⟩)
    have hsecond := hread ((run_readExact_eq_ok_iff hbounded closedMidFrame
      (frame.header.length.toNat - MuxHeader.wireSize session.version)).mpr
        ⟨hmissing, hpayload⟩)
    refine ⟨frame, (next, { session with rxSeq := frame.header.rxSeq }), ?_⟩
    rw [receive, Action.run_bind_ok (Action.run_get _)]
    dsimp only
    rw [Action.run_bind_ok hfirst, hframe.header,
      Action.run_bind_ok (Action.run_lift _ _), if_neg (by omega),
      Action.run_bind_ok hsecond, Action.run_bind_ok (Action.run_modify _ _),
      Action.run_pure]

end Coming

end Session

end Ioscpp
