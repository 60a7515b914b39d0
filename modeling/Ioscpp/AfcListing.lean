import Ioscpp.AfcLockStep

/-!
# Listing a directory

A device answers a listing with names, each with a NUL after it.  The client
takes a token that begins with `st_` for a stat key and skips the token after it,
so it returns the names exactly when none of them begins like that.

## Main results

- `map_name_listLoop_iff`: the entries of names alone are these names exactly when
  none is taken for a stat key.
- `list_complete_iff`: so it is for a listing behind any calls.
-/

namespace Ioscpp.Afc

open Ioscpp.Support
open Ioscpp.Support.Action

/-- The payload of a listing of names alone. -/
def listing (names : List Bytes) : Bytes :=
  names.flatMap fun name => name ++ [0]

/-- A name that a listing can hold: a token without characters would end no entry, and a
NUL would end the name. -/
structure IsName (name : Bytes) : Prop where
  nonempty : name ≠ []
  noNul : 0 ∉ name

/-- The token is taken for a stat key: it begins with `st_`. `list` does not compare it
with the four keys that it knows. -/
def IsStatKey (token : Bytes) : Prop := (ascii "st_").isPrefixOf token = true

instance (token : Bytes) : Decidable (IsStatKey token) :=
  inferInstanceAs (Decidable (_ = true))

/-! ## Tokens -/

/-- The tokens of a listing are its names. -/
theorem tokens_listing {names : List Bytes}
    (hnames : ∀ name ∈ names, IsName name) : tokens (listing names) = names := by
  induction names with
  | nil => rfl
  | cons name rest ih =>
      obtain ⟨hname, hrest⟩ := List.forall_mem_cons.mp hnames
      have hlisting : listing (name :: rest) = name ++ 0 :: listing rest := by
        simp [listing]
      have hall : ∀ byte ∈ name, (decide (byte ≠ 0)) = true := by
        intro byte hmem
        rw [decide_eq_true_eq]
        intro hzero
        exact hname.noNul (hzero ▸ hmem)
      have htake : (name ++ 0 :: listing rest).takeWhile (· ≠ 0) = name := by
        rw [List.takeWhile_append_of_pos hall]
        simp
      have hdrop : (name ++ 0 :: listing rest).dropWhile (· ≠ 0) =
          0 :: listing rest := by
        rw [List.dropWhile_append_of_pos hall]
        simp
      rw [hlisting, tokens_of_ne_nil (by simp), htake, hdrop, List.drop_one,
        List.tail_cons, ih hrest]

/-! ## Entries -/

/-- Names that are no stat keys are entries of their own. -/
theorem listLoop_names {names : List Bytes}
    (hnames : ∀ name ∈ names, name ≠ [] ∧ ¬ IsStatKey name) {current : Bytes}
    (hcurrent : current ≠ []) (entries : List DirEntry) :
    (listLoop names { name := current } entries).map (·.name) =
      entries.map (·.name) ++ current :: names := by
  induction names generalizing current entries with
  | nil =>
      unfold listLoop
      rw [if_pos hcurrent, List.map_append]
      rfl
  | cons name rest ih =>
      obtain ⟨hname, hkey⟩ := hnames name List.mem_cons_self
      have hrest := ih
        (fun other hmem => hnames other (List.mem_cons_of_mem _ hmem)) hname
        (entries ++ [{ name := current }])
      have hprefixed : ¬ (ascii "st_").isPrefixOf name = true := hkey
      unfold listLoop
      rw [if_pos hprefixed, if_pos hcurrent, hrest, List.map_append,
        List.append_assoc]
      rfl

theorem countP_cons_name {token : Bytes} (rest : List Bytes)
    (h : ¬ IsStatKey token) :
    (token :: rest).countP (fun token => ¬ IsStatKey token) =
      rest.countP (fun token => ¬ IsStatKey token) + 1 := by
  apply List.countP_cons_of_pos
  rw [decide_eq_true_eq]
  exact h

/-- The tokens that are no stat keys bound the entries. -/
theorem length_listLoop_le (tokens : List Bytes) (entry : DirEntry)
    (entries : List DirEntry) :
    (listLoop tokens entry entries).length ≤
      entries.length + tokens.countP (fun token => ¬ IsStatKey token) +
        if entry.name = [] then 0 else 1 := by
  fun_induction listLoop tokens entry entries with
  | case1 entry entries hname =>
      rw [List.length_append, if_neg hname]
      simp
  | case2 entry entries hname =>
      simp
  | case3 token rest entry entries hkey hname ih =>
      rw [countP_cons_name rest hkey, if_neg hname]
      rw [List.length_append, List.length_singleton] at ih
      have hlast : (if token = [] then 0 else 1) ≤ 1 := by split <;> omega
      dsimp only at ih
      omega
  | case4 token rest entry entries hkey hname ih =>
      rw [countP_cons_name rest hkey]
      have hlast : (if token = [] then 0 else 1) ≤ 1 := by split <;> omega
      dsimp only at ih
      omega
  | case5 token entry entries hkey ih =>
      rw [List.countP_nil] at ih
      have hle : 0 ≤ [token].countP (fun token => ¬ IsStatKey token) :=
        Nat.zero_le _
      omega
  | case6 token entry entries hkey value rest ih =>
      have hle : rest.countP (fun token => ¬ IsStatKey token) ≤
          (token :: value :: rest).countP (fun token => ¬ IsStatKey token) :=
        ((List.sublist_cons_self value rest).trans
          (List.sublist_cons_self token _)).countP_le
      apply ih.trans
      show entries.length + _ + (if entry.name = [] then 0 else 1) ≤ _
      omega

/-- The entries of names alone are these names exactly when none is taken for a
stat key. -/
theorem map_name_listLoop_iff {names : List Bytes}
    (hnames : ∀ name ∈ names, IsName name) :
    (listLoop names {} []).map (·.name) = names ↔
      ∀ name ∈ names, ¬ IsStatKey name := by
  constructor
  · intro h name hmem hkey
    have hlength := congrArg List.length h
    have hle := length_listLoop_le names {} []
    have hlt : names.countP (fun token => ¬ IsStatKey token) < names.length := by
      rw [List.countP_lt_length_iff]
      exact ⟨name, hmem, by simpa using hkey⟩
    rw [List.length_map] at hlength
    rw [if_pos rfl, List.length_nil] at hle
    omega
  · intro h
    cases names with
    | nil => rfl
    | cons name rest =>
        have hothers : ∀ other ∈ rest, other ≠ [] ∧ ¬ IsStatKey other := by
          intro other hmem
          have hmem := List.mem_cons_of_mem name hmem
          exact ⟨(hnames other hmem).nonempty, h other hmem⟩
        have hrest := listLoop_names hothers
          (hnames name List.mem_cons_self).nonempty []
        have hprefixed : ¬ (ascii "st_").isPrefixOf name = true :=
          h name List.mem_cons_self
        unfold listLoop
        rw [if_pos hprefixed, if_neg (not_not.mpr rfl)]
        exact hrest

/-! ## The listing -/

/-- The packet of a client's next listing. -/
def listPacket (state : AfcLink × Afc) (path : Bytes) : Bytes :=
  requestPacket (state.2.packetNum + 1) kOpReadDir (appendPath [] path) []

/-- What a listing returns, of the answer to its request. -/
theorem run_list {answer : List Bytes → Reply} {state : AfcLink × Afc}
    (h : InStep answer state) (path : Bytes) {data : Bytes}
    (hanswer : (answer (state.1.sent ++ [listPacket state path])).packet =
      ⟨kOpData, data⟩) :
    ((list path).run state).1 = .ok (listLoop (tokens data) {} []) := by
  have hrun := run_transact h.answering h.settled state.2.packetNum kOpReadDir
    (appendPath [] path) [] rfl rfl
  have hchecked : checkAnswer ⟨kOpData, data⟩ = .ok ⟨kOpData, data⟩ := by
    unfold checkAnswer
    rw [if_neg (show ¬ kOpData = kOpStatus by decide)]
    rfl
  unfold listPacket at hanswer
  rw [hanswer, hchecked] at hrun
  unfold list
  rw [run_bind_ok hrun, if_neg (not_not.mpr rfl)]
  rfl

/-- After any calls, a listing that the device answers with names alone returns
these names, in their order and with an entry for each, exactly when no name
begins with `st_`. -/
theorem list_complete_iff {answer : List Bytes → Reply} (calls : List Call)
    (path : Bytes) {names : List Bytes} (hnames : ∀ name ∈ names, IsName name)
    (hanswer : (answer ((performAll calls (connected answer)).1.sent ++
      [listPacket (performAll calls (connected answer)) path])).packet =
        ⟨kOpData, listing names⟩) :
    (∃ entries,
      ((list path).run (performAll calls (connected answer))).1 = .ok entries ∧
        entries.map (·.name) = names) ↔
      ∀ name ∈ names, ¬ IsStatKey name := by
  have hstep : InStep answer (performAll calls (connected answer)) :=
    (inStep_connected answer).performAll calls
  have hrun := run_list hstep path hanswer
  rw [tokens_listing hnames] at hrun
  rw [← map_name_listLoop_iff hnames]
  constructor
  · rintro ⟨entries, hentries, hmap⟩
    rw [hrun] at hentries
    cases hentries
    exact hmap
  · intro hmap
    exact ⟨_, hrun, hmap⟩

/-- A device with these names in every directory. -/
def naming (names : List Bytes) (fits : (listing names).length ≤ 2 ^ 63 - 1)
    (_ : List Bytes) : Reply :=
  .whole kOpData (listing names) fits

/-- Three names, of which the second begins with `st_`. -/
private def threeNames : List Bytes :=
  [ascii "a", ascii "st_b", ascii "c"]

private theorem isName_threeNames : ∀ name ∈ threeNames, IsName name := by
  intro name hmem
  simp only [threeNames, List.mem_cons, List.not_mem_nil, or_false] at hmem
  rcases hmem with rfl | rfl | rfl
  · exact ⟨by decide +kernel, by decide +kernel⟩
  · exact ⟨by decide +kernel, by decide +kernel⟩
  · exact ⟨by decide +kernel, by decide +kernel⟩

private theorem fits_threeNames : (listing threeNames).length ≤ 2 ^ 63 - 1 := by
  decide +kernel

theorem list_complete_iff_threeNames :
    (∃ entries, ((list [0x2f]).run (performAll []
      (connected (naming threeNames fits_threeNames)))).1 = .ok entries ∧
        entries.map (·.name) = threeNames) ↔
      ∀ name ∈ threeNames, ¬ IsStatKey name :=
  list_complete_iff [] [0x2f] isName_threeNames rfl

/-- Of the three names the first alone is returned. -/
theorem not_list_complete_threeNames :
    (∀ name ∈ threeNames, name ≠ [] ∧ 0 ∉ name) ∧
      (((list [0x2f]).run (connected (naming threeNames fits_threeNames))).1.map
        fun entries => entries.map (·.name)) = .ok [ascii "a"] := by
  constructor
  · intro name hmem
    exact ⟨(isName_threeNames name hmem).nonempty,
      (isName_threeNames name hmem).noNul⟩
  · decide +kernel

end Ioscpp.Afc
