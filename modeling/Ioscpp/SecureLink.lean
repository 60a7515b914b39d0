import Ioscpp.ByteStreamSimulation
import Ioscpp.TransportReading

/-!
# Streams and the TLS over them

`lockdownd` and the tunnel read and write their stream until a TLS session is
started on it, and then the session.  A TLS read returns what one record holds, so
they read on until they have what they asked for; that reads what one exact read
reads, however the peer cut its records.

## Main results

- `carries_plain`, `carries_tls`: a link carries bytes, without TLS and over it.
-/

namespace Ioscpp

open Ioscpp.Support
open Ioscpp.Support.Action

/-- A stream, or the TLS session over it.  A session that ends within a message is
the error `ended`. -/
inductive SecureLink (ended : Error) (σ κ : Type) where
  | plain (stream : σ)
  | tls (session : κ)

namespace SecureLink

variable {ended : Error} {σ κ : Type} [ByteStream σ] [Transport κ]

def readExact (count : Nat) : Action Error (SecureLink ended σ κ) Bytes
  | plain stream =>
      let outcome := (ByteStream.readExact count).run stream
      (outcome.1, plain outcome.2)
  | tls session =>
      let outcome := (Transport.readExact ended count).run session
      (outcome.1, tls outcome.2)

def write (data : Bytes) : Action Error (SecureLink ended σ κ) Unit
  | plain stream =>
      let outcome := (ByteStream.write data).run stream
      (outcome.1, plain outcome.2)
  | tls session =>
      let outcome := (Transport.write data).run session
      (outcome.1, tls outcome.2)

instance : ByteStream (SecureLink ended σ κ) where
  readExact := readExact
  write := write

end SecureLink

/-- The stream in memory is one that does what it does. -/
theorem MemoryByteStream.carriesBytes :
    CarriesBytes fun (stream memory : MemoryByteStream) => stream = memory where
  readExact := by
    rintro count stream _ bytes next rfl hrun
    exact ⟨next, hrun, rfl⟩
  write := by
    rintro data stream _ a next rfl hrun
    exact ⟨next, hrun, rfl⟩

/-! ## Sessions that deliver -/

/-- A session returns some of the bytes that stand next, as long as there are any,
and writes as the stream in memory does. -/
structure DeliversBytes {κ : Type} [Transport κ] (R : κ → MemoryByteStream → Prop) :
    Prop where
  read : ∀ {session incoming written count}, R session ⟨incoming, written⟩ →
    0 < count → incoming ≠ [] → ∃ piece rest next, incoming = piece ++ rest ∧
      piece ≠ [] ∧ piece.length ≤ count ∧
      (Transport.read count).run session = (.ok piece, next) ∧
      R next ⟨rest, written⟩
  write : ∀ data, Simulates R (Transport.write data) (ByteStream.write data)

section Delivers

variable {κ : Type} [Transport κ] {R : κ → MemoryByteStream → Prop}

/-- The loop reads on until the bytes are there. -/
theorem DeliversBytes.run_readExactLoop (h : DeliversBytes R) (ended : Error)
    {count fuel : Nat} {data incoming written : Bytes} {session : κ}
    (hR : R session ⟨incoming, written⟩) (hdata : data.length ≤ count)
    (hfuel : count ≤ data.length + fuel)
    (henough : count ≤ (data ++ incoming).length) :
    ∃ next, (Transport.readExactLoop ended count fuel data).run session =
        (.ok ((data ++ incoming).take count), next) ∧
      R next ⟨(data ++ incoming).drop count, written⟩ := by
  have hdone (hle : count ≤ data.length) :
      (data ++ incoming).take count = data ∧
        (data ++ incoming).drop count = incoming := by
    obtain rfl : data.length = count := Nat.le_antisymm hdata hle
    exact ⟨List.take_left, List.drop_left⟩
  induction fuel generalizing data incoming session with
  | zero =>
      have hle : count ≤ data.length := by omega
      obtain ⟨htake, hdrop⟩ := hdone hle
      rw [Transport.readExactLoop, if_pos hle, htake, hdrop]
      exact ⟨session, rfl, hR⟩
  | succ fuel ih =>
      rw [Transport.readExactLoop]
      by_cases hle : count ≤ data.length
      · obtain ⟨htake, hdrop⟩ := hdone hle
        rw [if_pos hle, htake, hdrop]
        exact ⟨session, rfl, hR⟩
      · have hmore : incoming ≠ [] := by
          rintro rfl
          rw [List.append_nil] at henough
          exact hle henough
        obtain ⟨piece, rest, next, rfl, hpiece, hlength, hrun, hnext⟩ :=
          h.read hR (by omega : 0 < count - data.length) hmore
        have hpos := List.length_pos_iff.mpr hpiece
        rw [if_neg hle, run_bind_ok hrun, if_neg hpiece, ← List.append_assoc]
        rw [← List.append_assoc] at henough
        refine ih hnext ?_ ?_ henough fun hle' => ?_
        · rw [List.length_append]
          omega
        · rw [List.length_append]
          omega
        · have hlength' : (data ++ piece).length = count := by
            rw [List.length_append] at hle' ⊢
            omega
          exact ⟨List.take_left' hlength', List.drop_left' hlength'⟩

theorem DeliversBytes.simulates_readExact (h : DeliversBytes R) (ended : Error)
    (count : Nat) :
    Simulates R (Transport.readExact ended count) (ByteStream.readExact count) := by
  rintro session ⟨incoming, written⟩ bytes next' hR hrun
  obtain ⟨hcount, rfl, rfl⟩ := MemoryByteStream.of_run_readExact hrun
  exact h.run_readExactLoop ended hR (Nat.zero_le count) (Nat.le_add_left _ _) hcount

/-- A script without a failure delivers its chunks, whatever their sizes. -/
theorem ScriptedTransport.deliversBytes :
    DeliversBytes fun (transport : ScriptedTransport) memory =>
      transport.Clean ∧ transport.writes = [] ∧
        transport.remaining = memory.incoming ∧
        transport.written.flatten = memory.written where
  read := by
    rintro transport incoming written count ⟨hclean, hwrites, rfl, rfl⟩ hcount hmore
    obtain ⟨piece, houtcome⟩ := ScriptedTransport.run_read count transport
    rcases hrun : (Transport.read count).run transport with ⟨result, next⟩
    rw [hrun] at houtcome
    obtain rfl : result = .ok piece := houtcome.clean hclean
    have hdelivers := houtcome.delivers
    exact ⟨piece, next.remaining, next, hdelivers.remaining,
      houtcome.nonempty hcount hclean hmore, houtcome.size, rfl,
      hdelivers.clean hclean, hdelivers.writes.trans hwrites, rfl,
      congrArg List.flatten hdelivers.written⟩
  write := by
    rintro data transport ⟨incoming, written⟩ a next' ⟨hclean, hwrites, rfl, rfl⟩ hrun
    rw [MemoryByteStream.run_write] at hrun
    cases hrun
    have hwrite : (Transport.write data).run transport =
        (.ok (), { transport with written := transport.written ++ [data] }) := by
      change ScriptedTransport.write data transport = _
      rw [ScriptedTransport.write, hwrites]
    exact ⟨_, hwrite, hclean, hwrites, rfl, by simp⟩

end Delivers

/-! ## The link -/

namespace SecureLink

variable {ended : Error} {σ κ : Type} [ByteStream σ] [Transport κ]
  {R : σ → MemoryByteStream → Prop} {R' : κ → MemoryByteStream → Prop}

/-- The link reads and writes as the stream in memory, with or without TLS: its stream
does, or its session does. -/
def Carried (R : σ → MemoryByteStream → Prop) (R' : κ → MemoryByteStream → Prop) :
    SecureLink ended σ κ → MemoryByteStream → Prop
  | plain stream => R stream
  | tls session => R' session

theorem carries (h : CarriesBytes R) (h' : DeliversBytes R') :
    CarriesBytes (@Carried ended σ κ R R') where
  readExact := by
    rintro count (stream | session) memory bytes next' hR hrun
    · obtain ⟨next, hread, hnext⟩ := h.readExact count hR hrun
      exact ⟨plain next, congrArg (fun outcome => (outcome.1, plain outcome.2)) hread,
        hnext⟩
    · obtain ⟨next, hread, hnext⟩ := h'.simulates_readExact ended count hR hrun
      exact ⟨tls next, congrArg (fun outcome => (outcome.1, tls outcome.2)) hread,
        hnext⟩
  write := by
    rintro data (stream | session) memory a next' hR hrun
    · obtain ⟨next, hwrite, hnext⟩ := h.write data hR hrun
      exact ⟨plain next, congrArg (fun outcome => (outcome.1, plain outcome.2)) hwrite,
        hnext⟩
    · obtain ⟨next, hwrite, hnext⟩ := h'.write data hR hrun
      exact ⟨tls next, congrArg (fun outcome => (outcome.1, tls outcome.2)) hwrite,
        hnext⟩

/-- A link without TLS. -/
theorem carries_plain (h : CarriesBytes R) :
    CarriesBytes (@Carried ended σ κ R fun _ _ => False) :=
  carries h ⟨fun hR => hR.elim, fun _ _ _ _ _ hR => hR.elim⟩

/-- A link over TLS. -/
theorem carries_tls (h : DeliversBytes R') :
    CarriesBytes (@Carried ended σ κ (fun _ _ => False) R') :=
  carries ⟨fun _ _ _ _ _ hR => hR.elim, fun _ _ _ _ _ hR => hR.elim⟩ h

end SecureLink

end Ioscpp
