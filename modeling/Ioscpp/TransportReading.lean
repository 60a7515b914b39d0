import Ioscpp.Transport

/-!
# Reading exactly

The mux session and the handshakes read a known number of bytes: they read what
is missing until it has come, whatever the transport returns at a time.  A
failure loses the bytes that came before it.

## Main results

- `run_readExact`: bytes are read however a script cuts them.
-/

namespace Ioscpp

open Ioscpp.Support

namespace Transport

variable {τ : Type} [Transport τ]

/-- The loop that reads what is missing.  A chunk has a byte at least, so `fuel`
is what is missing. -/
def readExactLoop (ended : Error) (count : Nat) :
    Nat → Bytes → Action Error τ Bytes
  | 0, data =>
      if count ≤ data.length then return data
      else Action.lift (.error .outOfFuel)
  | fuel + 1, data =>
      if count ≤ data.length then return data
      else do
        let chunk ← Transport.read (count - data.length)
        if chunk = [] then Action.fail ended
        else readExactLoop ended count fuel (data ++ chunk)

/-- Reads exactly `count` bytes, or fails with `ended` when the stream ends
before. -/
def readExact (ended : Error) (count : Nat) : Action Error τ Bytes :=
  readExactLoop ended count count []

/-! ## What it keeps -/

variable {I : τ → Prop}

theorem keeps_readExactLoop (hread : ∀ count,
      Action.Keeps I (Transport.read count : Action Error τ Bytes))
    (ended : Error) (count fuel : Nat) (data : Bytes) :
    Action.Keeps I (readExactLoop ended count fuel data) := by
  induction fuel generalizing data with
  | zero => exact Action.keeps_ite (Action.keeps_pure _) (Action.keeps_lift _)
  | succ fuel ih =>
      exact Action.keeps_ite (Action.keeps_pure _) ((hread _).bind fun chunk =>
        Action.keeps_ite (Action.keeps_lift _) (ih _))

theorem keeps_readExact (hread : ∀ count,
      Action.Keeps I (Transport.read count : Action Error τ Bytes))
    (ended : Error) (count : Nat) : Action.Keeps I (readExact ended count) :=
  keeps_readExactLoop hread ended count count []

end Transport

/-! ## Over a script -/

namespace ScriptedTransport

variable {transport : ScriptedTransport}

theorem run_readExactLoop (ended : Error) {count fuel : Nat} {data : Bytes}
    (hclean : transport.Clean) (hdata : data.length ≤ count)
    (hfuel : count ≤ data.length + fuel)
    (henough : count ≤ data.length + transport.remaining.length) :
    ∃ next, (Transport.readExactLoop ended count fuel data).run transport =
        (.ok (data ++ transport.remaining.take (count - data.length)), next) ∧
      Delivers transport next
        (transport.remaining.take (count - data.length)) := by
  have hdone (transport : ScriptedTransport) (data : Bytes)
      (h : count ≤ data.length) :
      data = data ++ transport.remaining.take (count - data.length) := by
    rw [Nat.sub_eq_zero_of_le h, List.take_zero, List.append_nil]
  have hnone (transport : ScriptedTransport) (data : Bytes)
      (h : count ≤ data.length) :
      Delivers transport transport
        (transport.remaining.take (count - data.length)) := by
    rw [Nat.sub_eq_zero_of_le h, List.take_zero]
    exact .refl _
  induction fuel generalizing data transport with
  | zero =>
      have hle : count ≤ data.length := by omega
      refine ⟨transport, ?_, hnone _ _ hle⟩
      rw [Transport.readExactLoop, if_pos hle, ← hdone _ _ hle]
      rfl
  | succ fuel ih =>
      by_cases hle : count ≤ data.length
      · refine ⟨transport, ?_, hnone _ _ hle⟩
        rw [Transport.readExactLoop, if_pos hle, ← hdone _ _ hle]
        rfl
      · obtain ⟨chunk, hread⟩ := run_read (count - data.length) transport
        have hne : chunk ≠ [] := by
          refine hread.nonempty (by omega) hclean fun hnil => ?_
          rw [hnil, List.length_nil] at henough
          omega
        have hpos := List.length_pos_iff.mpr hne
        have hsize := hread.size
        have hsplit := hread.delivers.remaining
        rcases hrun : (Transport.read (count - data.length)).run transport with
          ⟨result, later⟩
        rw [hrun] at hread hsplit
        obtain rfl : result = .ok chunk := hread.clean hclean
        have htaken : transport.remaining.take (count - data.length) =
            chunk ++ later.remaining.take (count - (data ++ chunk).length) := by
          rw [hsplit, List.take_append, List.take_of_length_le hsize,
            List.length_append, Nat.sub_sub]
        have hlength := congrArg List.length hsplit
        obtain ⟨next, hnext, hdelivers⟩ := @ih later (data ++ chunk)
          (hread.delivers.clean hclean) (by rw [List.length_append]; omega)
          (by rw [List.length_append]; omega)
          (by
            simp only [List.length_append] at hlength ⊢
            omega)
        refine ⟨next, ?_, ?_⟩
        · rw [Transport.readExactLoop, if_neg hle, Action.run_bind_ok hrun,
            if_neg hne, hnext, htaken, List.append_assoc]
        · rw [htaken]
          exact hread.delivers.trans hdelivers

/-- From a script without failures that holds enough, the bytes are read
however they are cut. -/
theorem run_readExact (ended : Error) {count : Nat} (hclean : transport.Clean)
    (henough : count ≤ transport.remaining.length) :
    ∃ next, (Transport.readExact ended count).run transport =
        (.ok (transport.remaining.take count), next) ∧
      Delivers transport next (transport.remaining.take count) := by
  have hrun := @run_readExactLoop transport ended count count [] hclean
    (Nat.zero_le _) (by simp) (by simpa using henough)
  simp only [List.length_nil, Nat.sub_zero, List.nil_append] at hrun
  exact hrun

end ScriptedTransport

end Ioscpp
