import Ioscpp.Support.Action

/-!
# Data sent in pieces

A writer cuts its data into pieces, sends each in a packet with the number of its
first byte, and stops at the first packet that cannot be sent.  The numbers have
32 bits and wrap around.  What a writer does with one piece says what it does
with all of them.

## Main results

- `SendsPieces.sent`: the loop sends all of the data in numbered packets, up to one
  that fails.
- `run_sendPieces_ok`: where every piece can be sent, all of the data is.
-/

namespace Ioscpp.Support

variable {ε σ κ : Type}

/-- The loop that sends data in pieces, each as long as the state allows.  A
piece has a byte at least, so `fuel` is the length of the data. -/
def sendPieces (size : σ → Nat) (send : Bytes → Action ε σ Unit) :
    Nat → Bytes → Action ε σ Unit
  | 0, data =>
      if data = [] then return () else Action.lift (.error .outOfFuel)
  | fuel + 1, data =>
      if data = [] then return ()
      else do
        let state ← get
        let chunk := min (size state) data.length
        send (data.take chunk)
        sendPieces size send fuel (data.drop chunk)

/-- Packets that carry pieces; the number of each is the number of the one before
it and the length of its piece. -/
inductive Numbered (Carries : UInt32 → Bytes → Bytes → Prop) :
    UInt32 → List Bytes → List Bytes → Prop
  | nil {number : UInt32} : Numbered Carries number [] []
  | cons {number : UInt32} {piece packet : Bytes} {pieces packets : List Bytes}
      (hpacket : Carries number piece packet)
      (hrest : Numbered Carries (number + UInt32.ofNat piece.length) pieces packets) :
      Numbered Carries number (piece :: pieces) (packet :: packets)

section Sent

variable (Carries : UInt32 → Bytes → Bytes → Prop)
  (call : Bytes → Checked ε Unit → κ)

/-- What comes of sending data, by the calls that were made and the number that
the writer has at the end: all of it was sent, or a packet failed and the number
counts the pieces before it. -/
inductive Sent (data : Bytes) (calls : List κ) (number : UInt32) :
    Checked ε Unit → List κ → UInt32 → Prop
  | whole {pieces packets : List Bytes} {calls' : List κ} {number' : UInt32}
      (hdata : data = pieces.flatten)
      (hpackets : Numbered Carries number pieces packets)
      (hcalls : calls' =
        calls ++ packets.map fun packet => call packet (.ok ()))
      (hnumber : number' = number + UInt32.ofNat data.length) :
      Sent data calls number (.ok ()) calls' number'
  | cut {front packets : List Bytes} {piece packet back : Bytes}
      {fault : Fault ε} {calls' : List κ} {number' : UInt32}
      (hdata : data = front.flatten ++ (piece ++ back))
      (hpackets : Numbered Carries number front packets)
      (hpacket : Carries number' piece packet)
      (hcalls : calls' =
        calls ++ ((packets.map fun packet => call packet (.ok ())) ++
          [call packet (.error fault)]))
      (hnumber : number' = number + UInt32.ofNat front.flatten.length) :
      Sent data calls number (.error fault) calls' number'

variable {Carries call}

/-- A piece that was sent stands in front of what is sent after it. -/
theorem Sent.cons {piece packet rest : Bytes} {calls calls' : List κ}
    {number number' : UInt32} {result : Checked ε Unit}
    (hpacket : Carries number piece packet)
    (h : Sent Carries call rest (calls ++ [call packet (.ok ())])
      (number + UInt32.ofNat piece.length) result calls' number') :
    Sent Carries call (piece ++ rest) calls number result calls' number' := by
  cases h with
  | whole hdata hpackets hcalls hnumber =>
      rename_i pieces packets
      have hdata' : piece ++ rest = (piece :: pieces).flatten := by
        rw [hdata, List.flatten_cons]
      apply Sent.whole hdata' (Numbered.cons hpacket hpackets)
      · rw [hcalls, List.append_assoc, List.map_cons, List.singleton_append]
      · rw [hnumber, List.length_append, UInt32.ofNat_add, UInt32.add_assoc]
  | cut hdata hpackets hfailed hcalls hnumber =>
      rename_i front packets failed lost back fault
      have hdata' : piece ++ rest =
          (piece :: front).flatten ++ (failed ++ back) := by
        rw [hdata, List.flatten_cons, List.append_assoc]
      apply Sent.cut hdata' (Numbered.cons hpacket hpackets) hfailed
      · rw [hcalls, List.append_assoc, List.map_cons, List.singleton_append,
          List.cons_append]
      · rw [hnumber, List.flatten_cons, List.length_append, UInt32.ofNat_add,
          UInt32.add_assoc]

end Sent

/-- A writer whose state has a property: what it does with a piece. -/
structure SendsPieces (I : σ → Prop) (size : σ → Nat)
    (send : Bytes → Action ε σ Unit) (calls : σ → List κ) (number : σ → UInt32)
    (Carries : UInt32 → Bytes → Bytes → Prop)
    (call : Bytes → Checked ε Unit → κ) : Prop where
  size_pos : ∀ state, I state → 0 < size state
  carries : ∀ state piece, I state → piece ≠ [] → piece.length ≤ size state →
    ∃ packet, Carries (number state) piece packet ∧
      calls ((send piece).run state).2 =
        calls state ++ [call packet ((send piece).run state).1]
  ok : ∀ state piece next, I state → piece.length ≤ size state →
    (send piece).run state = (.ok (), next) →
    I next ∧ number next = number state + UInt32.ofNat piece.length
  error : ∀ state piece next fault, I state → piece.length ≤ size state →
    (send piece).run state = (.error fault, next) → number next = number state

/-- The loop sends all of the data in numbered packets, up to one that fails. -/
theorem SendsPieces.sent {I : σ → Prop} {size : σ → Nat}
    {send : Bytes → Action ε σ Unit} {calls : σ → List κ} {number : σ → UInt32}
    {Carries : UInt32 → Bytes → Bytes → Prop} {call : Bytes → Checked ε Unit → κ}
    (h : SendsPieces I size send calls number Carries call) (fuel : Nat) :
    ∀ (data : Bytes) (state : σ), I state → data.length ≤ fuel →
      Sent Carries call data (calls state) (number state)
        ((sendPieces size send fuel data).run state).1
        (calls ((sendPieces size send fuel data).run state).2)
        (number ((sendPieces size send fuel data).run state).2) := by
  induction fuel with
  | zero =>
      intro data state _ hfuel
      have hdata : data = [] := List.eq_nil_of_length_eq_zero (by omega)
      rw [sendPieces, if_pos hdata, Action.run_pure, hdata]
      have hnil : ([] : Bytes) = ([] : List Bytes).flatten := rfl
      exact Sent.whole hnil Numbered.nil (by simp) (by simp)
  | succ fuel ih =>
      intro data state hI hfuel
      rw [sendPieces]
      by_cases hdata : data = []
      · rw [if_pos hdata, Action.run_pure, hdata]
        have hnil : ([] : Bytes) = ([] : List Bytes).flatten := rfl
        exact Sent.whole hnil Numbered.nil (by simp) (by simp)
      · rw [if_neg hdata, Action.run_bind_ok (Action.run_get state)]
        have hpos := h.size_pos state hI
        have hlength := List.length_pos_iff.mpr hdata
        have hsplit : data.take (min (size state) data.length) ++
            data.drop (min (size state) data.length) = data :=
          List.take_append_drop _ data
        have hpiece : (data.take (min (size state) data.length)).length =
            min (size state) data.length := by
          rw [List.length_take]
          omega
        have hrest : (data.drop (min (size state) data.length)).length ≤ fuel := by
          rw [List.length_drop]
          omega
        dsimp only
        generalize data.take (min (size state) data.length) = piece at *
        generalize data.drop (min (size state) data.length) = rest at *
        have hne : piece ≠ [] := List.length_pos_iff.mp (by omega)
        have hsize : piece.length ≤ size state := by omega
        obtain ⟨packet, hpacket, hcalls⟩ := h.carries state piece hI hne hsize
        rw [← hsplit]
        cases hrun : (send piece).run state with
        | mk result next =>
            rw [hrun] at hcalls
            cases result with
            | ok =>
                obtain ⟨hnext, hnumber⟩ := h.ok state piece next hI hsize hrun
                rw [Action.run_bind_ok hrun]
                apply Sent.cons hpacket
                have hsent := ih rest next hnext hrest
                rw [hcalls, hnumber] at hsent
                exact hsent
            | error fault =>
                have hnumber := h.error state piece next fault hI hsize hrun
                rw [Action.run_bind_error hrun]
                have hdata' :
                    piece ++ rest = ([] : List Bytes).flatten ++ (piece ++ rest) := rfl
                rw [← hnumber] at hpacket
                apply Sent.cut hdata' Numbered.nil hpacket hcalls
                rw [hnumber]
                simp

/-- Where every piece can be sent, all of the data is: what holds of the data so
far moves on with each piece. -/
theorem run_sendPieces_ok {I : Bytes → σ → Prop} {size : σ → Nat}
    {send : Bytes → Action ε σ Unit}
    (hsize : ∀ sofar state, I sofar state → 0 < size state)
    (hsend : ∀ sofar piece state, I sofar state → piece ≠ [] →
      piece.length ≤ size state →
      ∃ next, (send piece).run state = (.ok (), next) ∧ I (sofar ++ piece) next)
    (fuel : Nat) {sofar data : Bytes} {state : σ} (hfuel : data.length ≤ fuel)
    (h : I sofar state) :
    ∃ next, (sendPieces size send fuel data).run state = (.ok (), next) ∧
      I (sofar ++ data) next := by
  induction fuel generalizing sofar data state with
  | zero =>
      obtain rfl : data = [] := List.eq_nil_of_length_eq_zero (by omega)
      exact ⟨state, rfl, by simpa using h⟩
  | succ fuel ih =>
      by_cases hdata : data = []
      · subst hdata
        refine ⟨state, ?_, by simpa using h⟩
        rw [sendPieces, if_pos rfl]
        rfl
      · have hpos := hsize sofar state h
        have hlong := List.length_pos_iff.mpr hdata
        have hpiece : (data.take (min (size state) data.length)).length =
            min (size state) data.length := by
          rw [List.length_take]
          omega
        have hne : data.take (min (size state) data.length) ≠ [] :=
          List.length_pos_iff.mp (by omega)
        obtain ⟨next, hrun, hnext⟩ := hsend sofar _ state h hne (by omega)
        have hrest : (data.drop (min (size state) data.length)).length ≤ fuel := by
          rw [List.length_drop]
          omega
        obtain ⟨last, hloop, hlast⟩ := ih hrest hnext
        refine ⟨last, ?_, ?_⟩
        · rw [sendPieces, if_neg hdata, Action.run_bind_ok (Action.run_get state)]
          dsimp only
          rw [Action.run_bind_ok hrun, hloop]
        · rw [List.append_assoc, List.take_append_drop] at hlast
          exact hlast

/-! ## A receiver -/

section Receiver

variable {π : Type}

/-- A receiver that takes a piece when its number is the next, and gives up when
it is another.  `piece` is the number and the bytes of a packet's piece; other
packets are passed over. -/
def takePiece (piece : π → Option (UInt32 × Bytes)) :
    Option (UInt32 × Bytes) → π → Option (UInt32 × Bytes)
  | none, _ => none
  | some (next, data), packet =>
      match piece packet with
      | none => some (next, data)
      | some (number, bytes) =>
          if number = next then
            some (next + UInt32.ofNat bytes.length, data ++ bytes)
          else none

/-- The next number and the bytes that such a receiver has of packets. -/
def assembled (piece : π → Option (UInt32 × Bytes)) (first : UInt32)
    (packets : List π) : Option (UInt32 × Bytes) :=
  packets.foldl (takePiece piece) (some (first, []))

variable {piece : π → Option (UInt32 × Bytes)} {first number : UInt32}
  {packets others : List π} {data bytes : Bytes}

/-- Packets without a piece add nothing. -/
theorem assembled_quiet (h : ∀ packet ∈ others, piece packet = none) :
    assembled piece first (packets ++ others) = assembled piece first packets := by
  rw [assembled, assembled, List.foldl_append]
  generalize packets.foldl (takePiece piece) (some (first, [])) = taken
  induction others generalizing taken with
  | nil => rfl
  | cons packet others ih =>
      obtain ⟨hpacket, hothers⟩ := List.forall_mem_cons.mp h
      have hstep : takePiece piece taken packet = taken := by
        cases taken with
        | none => rfl
        | some taken => simp [takePiece, hpacket]
      rw [List.foldl_cons, hstep]
      exact ih hothers taken

/-- The packet with the next piece adds its bytes. -/
theorem assembled_next {packet : π}
    (h : assembled piece first packets = some (number, data))
    (hpacket : piece packet = some (number, bytes)) :
    assembled piece first (packets ++ [packet]) =
      some (number + UInt32.ofNat bytes.length, data ++ bytes) := by
  rw [assembled] at h
  rw [assembled, List.foldl_append, h, List.foldl_cons, List.foldl_nil]
  simp [takePiece, hpacket]

end Receiver

end Ioscpp.Support
