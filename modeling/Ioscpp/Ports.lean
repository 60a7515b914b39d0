import Ioscpp.Lockdown
import Ioscpp.Protocol.Cdtunnel
import Ioscpp.RsdFraming
import Ioscpp.Support.Binary64Integers

/-!
# Ports that are used as sent

Three answers carry a number that is used as a port or as an MTU, of 16 bits: a
64-bit integer, a double and a decimal text.  Each is narrowed without a check, so
it is used as it was sent exactly if it is a number of 16 bits.

## Main results

- `startService_of_answer`: the answer of `lockdownd` decides on the result of
  `startService`.
- `toNat_castUInt16`: the cast keeps a double whose text denotes a port.
- `parseService_of_port`: a service whose port is one is read, and has it.
- `ports_as_sent_iff`: when the three readers take a port as it was sent.
-/

namespace Ioscpp

open Ioscpp.Support
open Ioscpp.Protocol

/-! ## Numbers of 16 bits -/

/-- A number that a port can have: a natural number of 16 bits. A number with a fraction
or a sign is none. -/
def IsPort (number : ℚ) : Prop := ∃ port : Nat, port < 2 ^ 16 ∧ number = port

/-- What a result takes of numbers, each with the place of its port: the ports
themselves, if all are, and else nothing but an error. -/
structure AsSent {α : Type} (result : Result α)
    (sent : List (ℚ × (α → Option UInt16))) : Prop where
  used : (∀ number ∈ sent, IsPort number.1) →
    ∃ a, result = .ok a ∧ ∀ number ∈ sent, ∃ port,
      number.2 a = some port ∧ (port.toNat : ℚ) = number.1
  rejected : (¬ ∀ number ∈ sent, IsPort number.1) →
    ∃ e, result = .error (.error e)

/-- A result that is no error is only right for ports. -/
theorem asSent_iff {α : Type} {result : Result α}
    {sent : List (ℚ × (α → Option UInt16))}
    (hnoError : ∀ e, result ≠ .error (.error e))
    (hused : (∀ number ∈ sent, IsPort number.1) →
      ∃ a, result = .ok a ∧ ∀ number ∈ sent, ∃ port,
        number.2 a = some port ∧ (port.toNat : ℚ) = number.1) :
    AsSent result sent ↔ ∀ number ∈ sent, IsPort number.1 := by
  constructor
  · intro hsent
    by_contra hnot
    obtain ⟨e, he⟩ := hsent.rejected hnot
    exact hnoError e he
  · intro hports
    exact ⟨hused, fun hnot => absurd hports hnot⟩

theorem isPort_int {number : Int} :
    IsPort number ↔ 0 ≤ number ∧ number < 2 ^ 16 := by
  unfold IsPort
  constructor
  · intro ⟨port, hlt, heq⟩
    have hint : number = (port : Int) := by exact_mod_cast heq
    omega
  · intro ⟨hnonneg, hlt⟩
    refine ⟨number.toNat, by omega, ?_⟩
    have hint : ((number.toNat : Int) : ℚ) = number := by
      rw [Int.toNat_of_nonneg hnonneg]
    exact_mod_cast hint.symm

/-- The cast to 16 bits keeps a number that has no more. -/
theorem toNat_narrowed {number : Int} (h : IsPort number) :
    (((UInt16.ofNat (number % 2 ^ 16).toNat).toNat : Nat) : ℚ) = number := by
  obtain ⟨hnonneg, hlt⟩ := isPort_int.mp h
  have hmod : number % 2 ^ 16 = number := Int.emod_eq_of_lt hnonneg hlt
  have hnat : (UInt16.ofNat number.toNat).toNat = number.toNat := by
    rw [UInt16.toNat_ofNat']
    omega
  have hint : ((number.toNat : Int) : ℚ) = number := by
    rw [Int.toNat_of_nonneg hnonneg]
  rw [hmod, hnat]
  exact_mod_cast hint

/-! ## Integers -/

/-- The port of a service that `lockdownd` started. -/
def portOfService (port : Int64) : List (ℚ × (Service → Option UInt16)) :=
  [((port.toInt : ℚ), fun service => some service.port)]

/-- The answer of `lockdownd` decides on the result of `startService`, whatever the
stream is that it came by. -/
theorem startService_of_answer {σ : Type} [ByteStream σ] {name : Bytes}
    {state next : σ} {answer : Plist}
    (h : (Lockdown.request (Lockdown.serviceRequest name)).run state =
      (.ok answer, next)) :
    ((Lockdown.startService name).run state).1 = Lockdown.serviceOf answer := by
  unfold Lockdown.startService
  rw [Action.run_bind_ok h]
  rfl

theorem asSent_serviceOf {answer : Plist} {port : Int64}
    (h : answer.find (ascii "Port") = some (.integer port)) :
    AsSent (Lockdown.serviceOf answer) (portOfService port) ↔
      IsPort port.toInt := by
  have hservice : ∃ service, Lockdown.serviceOf answer = .ok service ∧
      service.port = UInt16.ofNat (port.toInt % 2 ^ 16).toNat := by
    unfold Lockdown.serviceOf
    rw [h]
    exact ⟨_, rfl, rfl⟩
  obtain ⟨service, hok, hport⟩ := hservice
  unfold portOfService
  rw [asSent_iff, List.forall_mem_singleton]
  · intro e he
    rw [hok] at he
    cases he
  · intro hports
    refine ⟨service, hok, ?_⟩
    rw [List.forall_mem_singleton] at hports ⊢
    refine ⟨_, rfl, ?_⟩
    rw [hport]
    exact toNat_narrowed hports

/-! ## JSON numbers -/

/-- The number that digits denote, with a point and an exponent. -/
def digitsNumber (text : Bytes) : ℚ :=
  let (whole, fraction, tail) := RealText.takeDigits isDigit text
  digitsValue (whole ++ fraction) *
    10 ^ ((Json.wholeExponent tail).getD 0 - fraction.length)

/-- The number that the text of a JSON number denotes. -/
def jsonNumber : Bytes → ℚ
  | 0x2d :: rest => -digitsNumber rest
  | text => digitsNumber text

theorem timesTen_eq (num : Nat) {den : Nat} (hden : 0 < den) (exponent : Int) :
    0 < (RealText.timesTen num den exponent).2 ∧
      ((RealText.timesTen num den exponent).1 : ℚ) =
        num / den * 10 ^ exponent * (RealText.timesTen num den exponent).2 := by
  have hden' : (den : ℚ) ≠ 0 := by exact_mod_cast hden.ne'
  unfold RealText.timesTen
  by_cases hnonneg : 0 ≤ exponent
  · rw [if_pos hnonneg]
    obtain ⟨power, rfl⟩ := Int.eq_ofNat_of_zero_le hnonneg
    refine ⟨hden, ?_⟩
    push_cast
    rw [Int.toNat_natCast, zpow_natCast]
    field_simp
  · rw [if_neg hnonneg]
    obtain ⟨power, hpower⟩ := Int.eq_ofNat_of_zero_le
      (show 0 ≤ -exponent by omega)
    have hexponent : exponent = -(power : Int) := by omega
    refine ⟨by positivity, ?_⟩
    subst hexponent
    push_cast
    rw [neg_neg, Int.toNat_natCast, zpow_neg, zpow_natCast]
    field_simp

/-- The double of a ratio that is a small number has that as integral part. -/
theorem truncate_ofRatio {negative : Bool} {num den port : Nat} (hden : 0 < den)
    (hlt : port < 2 ^ 16) (hnum : num = port * den)
    (hsign : negative = true → port = 0) :
    truncate (Binary64.ofRatio negative num den) = port := by
  subst hnum
  rcases Nat.eq_zero_or_pos port with rfl | hpos
  · have hzero : Binary64.ofRatio negative (0 * den) den =
        UInt64.ofNat (Binary64.signBit negative) := by
      rw [Nat.zero_mul]
      rfl
    rw [hzero]
    cases negative <;> decide +kernel
  · have hpositive : negative = false := by
      by_contra hnot
      have := hsign (Bool.eq_true_of_not_eq_false hnot)
      omega
    subst hpositive
    have hscale := Binary64.scale_ofRatio false hpos (by omega) hden
    have hsigned := Binary64.isNegative_ofRatio false hpos
      (show port < 2 ^ 53 by omega) hden
    dsimp only at hscale
    unfold truncate
    dsimp only
    rw [hsigned, hscale]
    rfl

/-- A text that is a double denotes the ratio that is rounded. -/
theorem ratio_of_fromDigits {negative : Bool} {text : Bytes} {bits : UInt64}
    (h : Json.fromDigits negative text = some bits) :
    ∃ num den, 0 < den ∧ bits = Binary64.ofRatio negative num den ∧
      (num : ℚ) = digitsNumber text * den := by
  unfold Json.fromDigits at h
  unfold digitsNumber
  dsimp only at h ⊢
  split at h
  · cases h
  · split at h
    · cases h
    · rename_i exponent hexponent
      split at h
      · cases h
      · obtain ⟨hden, hratio⟩ := timesTen_eq
          (digitsValue ((RealText.takeDigits isDigit text).1 ++
            (RealText.takeDigits isDigit text).2.1)) Nat.one_pos
          (exponent - (RealText.takeDigits isDigit text).2.1.length)
        refine ⟨_, _, hden, (Option.some.inj h).symm, ?_⟩
        rw [hratio, hexponent, Option.getD_some, Nat.cast_one, div_one]

/-- The double of a text that denotes a port has the port as integral part. -/
theorem truncate_fromChars {text : Bytes} {bits : UInt64} {port : Nat}
    (h : Json.fromChars text = some bits) (hlt : port < 2 ^ 16)
    (hport : jsonNumber text = port) : truncate bits = port := by
  unfold Json.fromChars at h
  split at h
  · rename_i rest
    have hdigits : -digitsNumber rest = port := hport
    obtain ⟨num, den, hden, rfl, hratio⟩ := ratio_of_fromDigits h
    have hpositive : (0 : ℚ) < den := by exact_mod_cast hden
    have hsmall : (num : ℚ) + port * den = 0 := by
      rw [hratio, ← hdigits]
      ring
    have hsum : num + port * den = 0 := by exact_mod_cast hsmall
    -- a number with a minus sign is a port only if it is zero
    have hnum : num = 0 := by omega
    have hport : port = 0 := by
      have hprod : port * den = 0 := by omega
      exact (Nat.mul_eq_zero.mp hprod).resolve_right hden.ne'
    subst hnum hport
    exact truncate_ofRatio hden hlt (Nat.zero_mul den).symm fun _ => rfl
  · rename_i hunsigned
    have hdigits : digitsNumber text = port := by
      rw [← hport]
      unfold jsonNumber
      split
      · rename_i rest
        exact absurd rfl (hunsigned rest)
      · rfl
    obtain ⟨num, den, hden, rfl, hratio⟩ := ratio_of_fromDigits h
    rw [hdigits] at hratio
    have hnum : num = port * den := by exact_mod_cast hratio
    exact truncate_ofRatio hden hlt hnum fun hfalse => absurd hfalse (by decide)

/-- The cast keeps a double whose text denotes a port: the double nearest to such a
number is the number itself, and the cast of it to 16 bits too. -/
theorem toNat_castUInt16 {undefined : UInt64 → UInt16} {text : Bytes}
    {bits : UInt64} (h : Json.fromChars text = some bits)
    (hport : IsPort (jsonNumber text)) :
    ((castUInt16 undefined bits).toNat : ℚ) = jsonNumber text := by
  obtain ⟨port, hlt, heq⟩ := hport
  have htruncate := truncate_fromChars h hlt heq
  have hnat : (UInt16.ofNat port).toNat = port := by
    rw [UInt16.toNat_ofNat']
    omega
  unfold castUInt16
  rw [htruncate, if_pos (by omega), Int.toNat_natCast, hnat, heq]

/-- An answer with all its fields, and the texts of its two numbers: what stands in the
text of the answer before `CdtunnelResponse::parse` narrows anything. -/
structure Carries (text mtu port : Bytes) where
  parsed : Json
  client : Json
  clientAddress : Bytes
  clientMtu : UInt64
  serverAddress : Bytes
  serverRsdPort : UInt64
  parse_eq : Json.parse text = .ok parsed
  client_eq : parsed.find (ascii "clientParameters") = some client
  clientAddress_eq :
    (client.find (ascii "address")).bind Json.asString = some clientAddress
  clientMtu_eq :
    (client.find (ascii "mtu")).bind Json.asNumber = some clientMtu
  serverAddress_eq :
    (parsed.find (ascii "serverAddress")).bind Json.asString = some serverAddress
  serverRsdPort_eq :
    (parsed.find (ascii "serverRSDPort")).bind Json.asNumber = some serverRsdPort
  mtu_eq : Json.fromChars mtu = some clientMtu
  port_eq : Json.fromChars port = some serverRsdPort

namespace Carries

variable {text mtu port : Bytes}

/-- What has a field is an object. -/
theorem isSome_client (h : Carries text mtu port) : h.client.asObject.isSome := by
  obtain ⟨field, hfield, -⟩ := Option.bind_eq_some_iff.mp h.clientMtu_eq
  unfold Json.find at hfield
  obtain ⟨entries, hentries, -⟩ := Option.bind_eq_some_iff.mp hfield
  rw [hentries]
  rfl

theorem parse_answer (undefined : UInt64 → UInt16) (h : Carries text mtu port) :
    CdtunnelResponse.parse undefined text = .ok {
      clientAddress := h.clientAddress
      clientMtu := castUInt16 undefined h.clientMtu
      serverAddress := h.serverAddress
      serverRsdPort := castUInt16 undefined h.serverRsdPort } := by
  unfold CdtunnelResponse.parse
  rw [h.parse_eq, ok_bind]
  unfold CdtunnelResponse.ofJson
  rw [h.client_eq, Option.filter_some, if_pos h.isSome_client]
  simp only [CdtunnelResponse.required, ok_bind]
  rw [h.clientAddress_eq, h.clientMtu_eq, h.serverAddress_eq, h.serverRsdPort_eq]
  rfl

/-- The places of the two numbers. -/
def numbers (mtu port : Bytes) :
    List (ℚ × (CdtunnelResponse → Option UInt16)) :=
  [(jsonNumber mtu, fun response => some response.clientMtu),
    (jsonNumber port, fun response => some response.serverRsdPort)]

theorem asSent_parse (undefined : UInt64 → UInt16) (h : Carries text mtu port) :
    AsSent (CdtunnelResponse.parse undefined text) (numbers mtu port) ↔
      IsPort (jsonNumber mtu) ∧ IsPort (jsonNumber port) := by
  have hparse := h.parse_answer undefined
  unfold numbers
  rw [asSent_iff]
  · simp only [List.forall_mem_cons, List.not_mem_nil, false_implies,
      implies_true, and_true]
  · intro e he
    rw [hparse] at he
    cases he
  · intro hports
    simp only [List.forall_mem_cons, List.not_mem_nil, false_implies,
      implies_true, and_true] at hports ⊢
    obtain ⟨hmtu, hport⟩ := hports
    exact ⟨_, hparse, ⟨_, rfl, toNat_castUInt16 h.mtu_eq hmtu⟩,
      ⟨_, rfl, toNat_castUInt16 h.port_eq hport⟩⟩

end Carries

/-! ## Decimal texts -/

/-- A decimal text: digits, with a sign that may stand in front. -/
def IsNumeral (text : Bytes) : Prop :=
  (takeSign text).2 ≠ [] ∧ ∀ c ∈ (takeSign text).2, isDigit c

instance instDecidableIsNumeral (text : Bytes) : Decidable (IsNumeral text) :=
  inferInstanceAs (Decidable (_ ∧ _))

/-- The number that a decimal text denotes. -/
def numeral (text : Bytes) : Int :=
  let (negative, digits) := takeSign text
  if negative then -digitsValue digits else digitsValue digits

/-- No white space stands in front of a decimal text. -/
theorem dropWhile_of_isNumeral {text : Bytes} (h : IsNumeral text) :
    text.dropWhile isSpace = text := by
  cases text with
  | nil => rfl
  | cons c rest =>
      have hspace : isSpace c = false := by
        by_cases hminus : c = 0x2d
        · rw [hminus]
          rfl
        by_cases hplus : c = 0x2b
        · rw [hplus]
          rfl
        have hsign : takeSign (c :: rest) = (false, c :: rest) := by
          unfold takeSign
          split
          · rename_i heq
            exact absurd (List.cons.inj heq).1 hminus
          · rename_i heq
            exact absurd (List.cons.inj heq).1 hplus
          · rfl
        have hdigit := h.2 c (by simp [hsign])
        simp [not_isSpace_of_isDigit hdigit]
      rw [List.dropWhile_cons, hspace]
      rfl

theorem stoi_of_isNumeral {text : Bytes} (h : IsNumeral text)
    (hlow : -2 ^ 31 ≤ numeral text) (hhigh : numeral text < 2 ^ 31) :
    (stoi text : Result Int) = .ok (numeral text) := by
  obtain ⟨hne, hdigits⟩ := h
  have htake := List.takeWhile_eq_self_iff.mpr hdigits
  unfold stoi
  rw [dropWhile_of_isNumeral ⟨hne, hdigits⟩]
  unfold numeral at *
  dsimp only at *
  rw [htake, if_neg]
  intro hor
  rcases hor with hnil | hless | hmore
  · exact hne hnil
  · omega
  · omega

/-- The port's text of a service, if it has one. -/
def portText (entry : Xpc) : Option Bytes :=
  (entry.find (ascii "Port")).bind Xpc.asString

/-- The ports of services, each with its place. -/
def portsOfServices (entries : List (Bytes × Xpc)) :
    List (ℚ × (RsdServices → Option UInt16)) :=
  entries.filterMap fun entry => (portText entry.2).map fun text =>
    ((numeral text : ℚ),
      fun services => (SortedMap.find entry.1 services).map (·.port))

theorem mem_portsOfServices {entries : List (Bytes × Xpc)}
    {number : ℚ × (RsdServices → Option UInt16)} :
    number ∈ portsOfServices entries ↔ ∃ entry ∈ entries, ∃ text,
      portText entry.2 = some text ∧ number = ((numeral text : ℚ),
        fun services => (SortedMap.find entry.1 services).map (·.port)) := by
  simp only [portsOfServices, List.mem_filterMap, Option.map_eq_some_iff]
  constructor
  · intro ⟨entry, hmem, text, htext, heq⟩
    exact ⟨entry, hmem, text, htext, heq.symm⟩
  · intro ⟨entry, hmem, text, htext, heq⟩
    exact ⟨entry, hmem, text, htext, heq.symm⟩

/-- A service whose port is one is read, and has it; one without a text for its port is
read as well. -/
theorem parseService_of_port {entry : Xpc}
    (h : ∀ text, portText entry = some text →
      IsNumeral text ∧ IsPort (numeral text)) :
    ∃ service, parseService entry = .ok service ∧
      ∀ text, portText entry = some text →
        (service.port.toNat : ℚ) = numeral text := by
  rcases htext : portText entry with _ | text
  · have hnone : (entry.find (ascii "Port")).bind Xpc.asString = none := htext
    unfold parseService
    rw [hnone]
    exact ⟨_, rfl, fun text hsome => by cases hsome⟩
  · have hsome : (entry.find (ascii "Port")).bind Xpc.asString = some text := htext
    obtain ⟨hnumeral, hport⟩ := h text htext
    have hbounds := isPort_int.mp hport
    have hstoi := stoi_of_isNumeral hnumeral (by omega) (by omega)
    unfold parseService
    rw [hsome]
    dsimp only
    rw [hstoi]
    refine ⟨_, rfl, ?_⟩
    intro other hother
    cases hother
    exact toNat_narrowed hport

theorem parseServices_of_entries {reply : Xpc} {entries : List (Bytes × Xpc)}
    {service : Bytes × Xpc → RsdService}
    (hentries : (reply.find (ascii "Services")).bind Xpc.asDictionary =
      some entries)
    (hsorted : SortedMap.Sorted entries)
    (h : ∀ entry ∈ entries, parseService entry.2 = .ok (service entry)) :
    parseServices reply =
      .ok (entries.map fun entry => (entry.1, service entry)) := by
  have hfold : ∀ (rest : List (Bytes × Xpc)) (services : RsdServices),
      (∀ entry ∈ rest, parseService entry.2 = .ok (service entry)) →
      rest.foldlM (fun services entry => do
          let service ← parseService entry.2
          return SortedMap.emplace entry.1 service services) services =
        (.ok ((rest.map fun entry => (entry.1, service entry)).foldl
          (fun map entry => SortedMap.emplace entry.1 entry.2 map) services) :
          Result RsdServices) := by
    intro rest
    induction rest with
    | nil => exact fun _ _ => rfl
    | cons entry rest ih =>
        intro services hrest
        rw [List.foldlM_cons, hrest entry List.mem_cons_self, ok_bind,
          pure_eq_ok, ok_bind]
        exact ih _ fun other hmem => hrest other (List.mem_cons_of_mem _ hmem)
  have hkeys : SortedMap.Sorted
      (entries.map fun entry => (entry.1, service entry)) := by
    unfold SortedMap.Sorted
    rw [List.map_map]
    exact hsorted
  unfold parseServices
  rw [hentries]
  dsimp only
  rw [hfold entries [] h]
  exact congrArg Except.ok (SortedMap.ofEntries_of_sorted hkeys)

theorem asSent_parseServices {reply : Xpc} {entries : List (Bytes × Xpc)}
    (hentries : (reply.find (ascii "Services")).bind Xpc.asDictionary =
      some entries)
    (hsorted : SortedMap.Sorted entries)
    (hnumerals : ∀ entry ∈ entries, ∀ text, portText entry.2 = some text →
      IsNumeral text) :
    AsSent (parseServices reply) (portsOfServices entries) ↔
      ∀ entry ∈ entries, ∀ text, portText entry.2 = some text →
        IsPort (numeral text) := by
  have hall : (∀ number ∈ portsOfServices entries, IsPort number.1) ↔
      ∀ entry ∈ entries, ∀ text, portText entry.2 = some text →
        IsPort (numeral text) := by
    constructor
    · intro hports entry hmem text htext
      exact hports _ (mem_portsOfServices.mpr ⟨entry, hmem, text, htext, rfl⟩)
    · intro hports number hmem
      obtain ⟨entry, hentry, text, htext, rfl⟩ := mem_portsOfServices.mp hmem
      exact hports entry hentry text htext
  rw [asSent_iff, hall]
  · intro e he
    have hexception := parseServices_error he
    cases hexception
  · intro hports
    have hports := hall.mp hports
    have hservices : ∀ entry : Bytes × Xpc, ∃ service, entry ∈ entries →
        parseService entry.2 = .ok service ∧
          ∀ text, portText entry.2 = some text →
            (service.port.toNat : ℚ) = numeral text := by
      intro entry
      by_cases hmem : entry ∈ entries
      · obtain ⟨service, hservice⟩ := parseService_of_port fun text htext =>
          ⟨hnumerals entry hmem text htext, hports entry hmem text htext⟩
        exact ⟨service, fun _ => hservice⟩
      · exact ⟨{}, fun hentry => absurd hentry hmem⟩
    choose service hservice using hservices
    refine ⟨_, parseServices_of_entries hentries hsorted fun entry hmem =>
      (hservice entry hmem).1, ?_⟩
    intro number hmem
    obtain ⟨entry, hentry, text, htext, rfl⟩ := mem_portsOfServices.mp hmem
    have hkeys : SortedMap.Sorted
        (entries.map fun entry => (entry.1, service entry)) := by
      unfold SortedMap.Sorted
      rw [List.map_map]
      exact hsorted
    have hfind := SortedMap.find_of_mem hkeys
      (List.mem_map_of_mem (f := fun entry => (entry.1, service entry)) hentry)
    refine ⟨(service entry).port, ?_, (hservice entry hentry).2 text htext⟩
    dsimp only
    rw [hfind]
    rfl

/-! ## The three answers -/

/-- Each of the three takes the ports of its answer as they were sent exactly if
they are ports: it never rejects one that is not. -/
theorem ports_as_sent_iff {σ : Type} [ByteStream σ] {name : Bytes}
    {state next : σ} {answer : Plist} {port : Int64}
    (hanswer : (Lockdown.request (Lockdown.serviceRequest name)).run state =
      (.ok answer, next))
    (hport : answer.find (ascii "Port") = some (.integer port))
    (undefined : UInt64 → UInt16) {text mtu rsdPort : Bytes}
    (hcarries : Carries text mtu rsdPort)
    {reply : Xpc} {entries : List (Bytes × Xpc)}
    (hentries : (reply.find (ascii "Services")).bind Xpc.asDictionary =
      some entries)
    (hsorted : SortedMap.Sorted entries)
    (hnumerals : ∀ entry ∈ entries, ∀ text, portText entry.2 = some text →
      IsNumeral text) :
    (AsSent ((Lockdown.startService name).run state).1 (portOfService port) ↔
        IsPort port.toInt) ∧
      (AsSent (CdtunnelResponse.parse undefined text)
          (Carries.numbers mtu rsdPort) ↔
        IsPort (jsonNumber mtu) ∧ IsPort (jsonNumber rsdPort)) ∧
      (AsSent (parseServices reply) (portsOfServices entries) ↔
        ∀ entry ∈ entries, ∀ text, portText entry.2 = some text →
          IsPort (numeral text)) := by
  rw [startService_of_answer hanswer]
  exact ⟨asSent_serviceOf hport, hcarries.asSent_parse undefined,
    asSent_parseServices hentries hsorted hnumerals⟩

/-- What `lockdownd` answers when it started a service on this port. -/
private def startedOn (port : Int64) : Plist :=
  .dictionary [(ascii "Port", .integer port)]

private theorem sendable_startedOn {port : Int64}
    (h : (startedOn port).toXml.length < 2 ^ 32) :
    PlistService.Sendable (startedOn port) where
  wellFormed := by
    apply Plist.wellFormed_dictionary.mpr
    rw [List.forall_mem_singleton]
    exact ⟨List.pairwise_singleton _ _, .leaf trivial⟩
  leaves := by
    apply Plist.allLeaves_dictionary.mpr
    rw [List.forall_mem_singleton, List.forall_mem_singleton]
    exact ⟨trivial, .leaf trivial trivial⟩
  length := h

private theorem find_startedOn {port : Int64} :
    (startedOn port).find (ascii "Port") = some (.integer port) := by
  unfold startedOn Plist.find
  exact if_pos rfl

private theorem checkAnswer_startedOn {port : Int64} :
    Lockdown.checkAnswer (startedOn port) = .ok (startedOn port) := by
  have hne : ascii "Port" ≠ ascii "Error" := by decide +kernel
  have hfind : (startedOn port).find (ascii "Error") = none := by
    unfold startedOn Plist.find
    exact if_neg hne
  unfold Lockdown.checkAnswer
  rw [hfind]

private def answering (port : Int64) : MemoryByteStream :=
  ⟨PlistService.frame (startedOn port) ++ [], []⟩

private def serverHandshake (mtu : String) : Bytes :=
  ascii "\x7b\"clientParameters\":\x7b\"address\":\"a\",\"mtu\":" ++
    ascii mtu ++
    ascii "\x7d,\"serverAddress\":\"b\",\"serverRSDPort\":58783\x7d"

private def parsedHandshake : Json :=
  (Json.parse (serverHandshake "1280")).toOption.getD .null

private def clientParameters : Json :=
  (parsedHandshake.find (ascii "clientParameters")).getD .null

private theorem eq_ok_of_isSome {α : Type} {result : Result α} (a : α)
    (h : result.toOption.isSome) : result = .ok (result.toOption.getD a) := by
  rcases result with e | a
  · cases h
  · rfl

private theorem eq_some_of_isSome {α : Type} {value : Option α} (a : α)
    (h : value.isSome) : value = some (value.getD a) := by
  rcases value with _ | a
  · cases h
  · rfl

private theorem parse_serverHandshake :
    Json.parse (serverHandshake "1280") = .ok parsedHandshake := by
  unfold parsedHandshake
  exact eq_ok_of_isSome _ (by decide +kernel)

private theorem find_clientParameters :
    parsedHandshake.find (ascii "clientParameters") = some clientParameters := by
  unfold clientParameters
  exact eq_some_of_isSome _ (by decide +kernel)

private def carriesHandshake :
    Carries (serverHandshake "1280") (ascii "1280") (ascii "58783") where
  parsed := parsedHandshake
  client := clientParameters
  clientAddress := ascii "a"
  clientMtu := 0x4094000000000000
  serverAddress := ascii "b"
  serverRsdPort := 0x40ecb3e000000000
  parse_eq := parse_serverHandshake
  client_eq := find_clientParameters
  clientAddress_eq := by decide +kernel
  clientMtu_eq := by decide +kernel
  serverAddress_eq := by decide +kernel
  serverRsdPort_eq := by decide +kernel
  mtu_eq := by decide +kernel
  port_eq := by decide +kernel

private def services (port : String) : List (Bytes × Xpc) :=
  [(ascii "a", .dictionary [(ascii "Port", .string (ascii port))])]

private def servicesReply (port : String) : Xpc :=
  .dictionary [(ascii "Services", .dictionary (services port))]

private theorem find_services {port : String} :
    ((servicesReply port).find (ascii "Services")).bind Xpc.asDictionary =
      some (services port) := rfl

private theorem sorted_services {port : String} :
    SortedMap.Sorted (services port) := List.pairwise_singleton _ _

private theorem portText_services {port : String} :
    ∀ entry ∈ services port, portText entry.2 = some (ascii port) := by
  unfold services
  rw [List.forall_mem_singleton]
  rfl

theorem ports_as_sent_iff_sample :
    (AsSent ((Lockdown.startService (ascii "a")).run (answering 62078)).1
        (portOfService 62078) ↔ IsPort (62078 : Int64).toInt) ∧
      (AsSent (CdtunnelResponse.parse (fun _ => 0) (serverHandshake "1280"))
          (Carries.numbers (ascii "1280") (ascii "58783")) ↔
        IsPort (jsonNumber (ascii "1280")) ∧
          IsPort (jsonNumber (ascii "58783"))) ∧
      (AsSent (parseServices (servicesReply "443"))
          (portsOfServices (services "443")) ↔
        ∀ entry ∈ services "443", ∀ text, portText entry.2 = some text →
          IsPort (numeral text)) := by
  have hsendable : PlistService.Sendable (startedOn 62078) :=
    sendable_startedOn (by decide +kernel)
  apply ports_as_sent_iff
    (Lockdown.run_request (Lockdown.answers_frame hsendable) checkAnswer_startedOn _
      [] []) find_startedOn
    (fun _ => 0) carriesHandshake find_services sorted_services
  intro entry hmem text htext
  rw [portText_services entry hmem] at htext
  rw [← Option.some.inj htext]
  decide +kernel

/-- A result that uses a number that is no port does not take it as sent. -/
theorem not_asSent_of_ok {α : Type} {result : Result α} {a : α}
    (h : result = .ok a) {sent : List (ℚ × (α → Option UInt16))}
    {number : ℚ × (α → Option UInt16)} (hmem : number ∈ sent)
    (hnot : ¬ IsPort number.1) : ¬ AsSent result sent := by
  intro hsent
  obtain ⟨e, he⟩ := hsent.rejected fun hports => hnot (hports number hmem)
  rw [h] at he
  cases he

/-- The port 65537 becomes 1, also as text, and an MTU of 1280.5 becomes 1280. -/
theorem not_ports_as_sent_wrapped :
    (¬ AsSent ((Lockdown.startService (ascii "a")).run (answering 65537)).1
        (portOfService 65537)) ∧
      (¬ AsSent (CdtunnelResponse.parse (fun _ => 0) (serverHandshake "1280.5"))
        (Carries.numbers (ascii "1280.5") (ascii "58783"))) ∧
      ¬ AsSent (parseServices (servicesReply "65537"))
        (portsOfServices (services "65537")) := by
  refine ⟨?_, ?_, ?_⟩
  · have hsendable : PlistService.Sendable (startedOn 65537) :=
      sendable_startedOn (by decide +kernel)
    have hanswer : (Lockdown.request (Lockdown.serviceRequest (ascii "a"))).run
        (answering 65537) = (.ok (startedOn 65537), _) :=
      Lockdown.run_request (Lockdown.answers_frame hsendable) checkAnswer_startedOn
        _ [] []
    rw [startService_of_answer hanswer]
    apply not_asSent_of_ok (show _ = Except.ok ⟨1, false⟩ by decide +kernel)
      List.mem_cons_self
    rw [isPort_int]
    decide
  · apply not_asSent_of_ok (a := ⟨ascii "a", 1280, ascii "b", 58783⟩)
      (by decide +kernel) List.mem_cons_self
    intro ⟨port, _, heq⟩
    have hhalf : jsonNumber (ascii "1280.5") * 10 = 12805 := by
      have hdigits : RealText.takeDigits isDigit (ascii "1280.5") =
          (ascii "1280", ascii "5", []) := by decide +kernel
      have hvalue : digitsValue (ascii "1280" ++ ascii "5") = 12805 := by
        decide +kernel
      have hplaces : (ascii "5").length = 1 := by decide +kernel
      show digitsNumber (ascii "1280.5") * 10 = 12805
      unfold digitsNumber
      rw [hdigits]
      dsimp only
      rw [hvalue, hplaces]
      norm_num [Json.wholeExponent]
    have hport : jsonNumber (ascii "1280.5") = port := heq
    rw [hport] at hhalf
    have hwhole : port * 10 = 12805 := by exact_mod_cast hhalf
    omega
  · have hparse : parseServices (servicesReply "65537") =
        .ok [(ascii "a", ⟨1, false⟩)] := by decide +kernel
    apply not_asSent_of_ok hparse (mem_portsOfServices.mpr ⟨_,
      List.mem_cons_self, _, portText_services _ List.mem_cons_self, rfl⟩)
    have hnumeral : numeral (ascii "65537") = 65537 := by decide +kernel
    rw [hnumeral, isPort_int]
    decide

end Ioscpp
