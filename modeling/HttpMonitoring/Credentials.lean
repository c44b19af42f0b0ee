import HttpMonitoring.Handlers

/-!
# The secrets that a request presents

`consttime_eq` decides equality of byte strings, `find_header` finds the first
header of a name in a list of parts, and the two checks accept exactly the
configured secrets.
-/

namespace HttpMonitoring.Credentials

open Nginx Library.CString Exchange Access

variable {w : Nat}

theorem foldl_or_eq_zero (diff : Nat → Nat) (indices : List Nat) (start : Nat) :
    indices.foldl (fun acc i => acc ||| diff i) start = 0 ↔ start = 0 ∧ ∀ i ∈ indices, diff i = 0 := by
  induction indices generalizing start with
  | nil => simp
  | cons i indices ih =>
    rw [List.foldl_cons, ih, Nat.or_eq_zero_iff, List.forall_mem_cons, and_assoc]

theorem xor_toNat_eq_zero_iff (x y : UInt8) : (x ^^^ y).toNat = 0 ↔ x = y := by
  rw [UInt8.toNat_xor, Nat.xor_eq_zero_iff]
  exact UInt8.toNat_inj

theorem consttimeEq_eq_ok_iff (a b : Bytes) : consttimeEq a b = rcOk ↔ a = b := by
  have hOk : ∀ p : Prop, ∀ _ : Decidable p, (if p then rcOk else rcDeclined) = rcOk ↔ p := by
    intro p _
    split <;> simp_all [rcOk, rcDeclined]
  rw [consttimeEq, hOk, foldl_or_eq_zero, Nat.xor_eq_zero_iff]
  simp only [List.mem_range, xor_toNat_eq_zero_iff]
  constructor
  · rintro ⟨hLength, hBytes⟩
    refine List.ext_getElem hLength fun i ha hb => ?_
    have hByte := hBytes i (by split <;> omega)
    rwa [List.getD_eq_getElem _ _ ha, List.getD_eq_getElem _ _ hb] at hByte
  · rintro rfl
    exact ⟨rfl, fun _ _ => rfl⟩

theorem presents_iff (secret : Option Bytes) (expected : Bytes) :
    presents secret expected = true ↔ secret = some expected := by
  cases secret with
  | none => simp [presents]
  | some token => simp [presents, consttimeEq_eq_ok_iff]

def lower (s : Bytes) : Bytes := s.map toLower

/-- A value that begins with a scheme, in any case, and goes on behind it. -/
def HasScheme (scheme value : Bytes) : Prop :=
  lower (value.take scheme.length) = lower scheme ∧ value.drop scheme.length ≠ []

theorem strncasecmpEq_iff {scheme : Bytes} (hScheme : 0 ∉ lower scheme) (value : Bytes) :
    strncasecmpEq scheme.length value scheme = true ↔
      lower (value.take scheme.length) = lower scheme := by
  have hLength : scheme.length = (lower scheme).length := by simp [lower]
  have hTake : (lower scheme).take scheme.length = lower scheme := by
    rw [hLength, List.take_length]
  have hCompare := strncmpEq_iff_take scheme.length (lower value) (lower scheme) hLength.le
    fun h => hScheme (List.mem_of_mem_take h)
  rw [hTake] at hCompare
  rw [strncasecmpEq, lower, List.map_take]
  exact hCompare

theorem hasScheme_iff (scheme : Bytes) (hScheme : 0 ∉ lower scheme) (value : Bytes) :
    (scheme.length < value.length ∧ strncasecmpEq scheme.length value scheme = true) ↔
      HasScheme scheme value := by
  rw [strncasecmpEq_iff hScheme, HasScheme, and_comm, ne_eq, List.drop_eq_nil_iff, not_le]

/-- The test of `find_header` on one header. -/
theorem named_iff {name : Bytes} (hName : 0 ∉ lower name) (h : Header) :
    named name h = true ↔ lower h.key = lower name := by
  rw [named, decide_eq_true_iff, strncasecmpEq_iff hName]
  constructor
  · rintro ⟨hLength, hTake⟩
    rwa [← hLength, List.take_length] at hTake
  · intro hSame
    have hLength : h.key.length = name.length := by simpa [lower] using congrArg List.length hSame
    refine ⟨hLength, ?_⟩
    rwa [← hLength, List.take_length]

def headers (l : HeaderList) : List Header := l.first ++ l.rest.flatMap fun part => part.1 :: part.2

theorem findInParts_eq_find (name : Bytes) (part : List Header) (next : List (Header × List Header)) :
    findInParts name part next =
      (part ++ next.flatMap fun part => part.1 :: part.2).find? (named name) := by
  induction next generalizing part with
  | nil => simp [findInParts]
  | cons head next ih =>
    obtain ⟨h, elts⟩ := head
    rw [findInParts, ih, List.flatMap_cons, List.find?_append, List.find?_append, List.find?_append]

def headerValue (r : HttpRequest w) (name : Bytes) : Option Bytes :=
  ((headers r.headers).find? fun h => lower h.key = lower name).map Header.value

theorem findHeader_eq (r : HttpRequest w) {name : Bytes} (hName : 0 ∉ lower name) :
    (findHeader r name).map Header.value = headerValue r name := by
  rw [findHeader, findInParts_eq_find, headerValue, headers]
  congr 1
  refine List.find?_congr fun h _ => ?_
  rw [Bool.eq_iff_iff, named_iff hName, decide_eq_true_iff]

theorem hasBearer_iff (value : Bytes) :
    (7 < value.length ∧ strncasecmpEq 7 value (ascii "Bearer ") = true) ↔
      HasScheme (ascii "Bearer ") value := hasScheme_iff (ascii "Bearer ") (by decide) value

theorem hasBasic_iff (value : Bytes) :
    (6 < value.length ∧ strncasecmpEq 6 value (ascii "Basic ") = true) ↔
      HasScheme (ascii "Basic ") value := hasScheme_iff (ascii "Basic ") (by decide) value

theorem bearer_eq_some_iff (r : HttpRequest w) (token : Bytes) :
    bearer r = some token ↔ ∃ value, r.authorization = some value ∧ HasScheme (ascii "Bearer ") value ∧
      value.drop 7 = token := by
  rw [bearer, Option.bind_eq_some_iff]
  refine exists_congr fun value => and_congr_right fun _ => ?_
  rw [Option.ite_none_right_eq_some, hasBearer_iff, Option.some_inj]

theorem checkApiToken_iff (core : Core w) (r : HttpRequest w) (mlcf : LocConf w) :
    checkApiToken core r mlcf = rcOk ↔ mlcf.apiToken = [] ∨
      headerValue r (ascii "X-Monitor-Token") = some mlcf.apiToken ∨
      (∃ value, r.authorization = some value ∧ HasScheme (ascii "Bearer ") value ∧
        value.drop 7 = mlcf.apiToken) ∨
      core.arg r.args (ascii "token") = some mlcf.apiToken := by
  have hDeclined : rcDeclined ≠ rcOk := by decide
  rw [checkApiToken, ← bearer_eq_some_iff, ← findHeader_eq r (by decide), ← presents_iff, ← presents_iff,
    ← presents_iff, ← List.length_eq_zero_iff]
  split_ifs <;> simp_all

theorem isOff_iff (value : Bytes) : isOff value = true ↔ value = [] ∨ value = ascii "off" := by
  have hName : (0 : UInt8) ∉ ascii "off" := by decide
  rw [isOff, decide_eq_true_iff, List.length_eq_zero_iff, ← strncmpEq_length_iff hName]
  rfl

/-- An authorization that `check_basic_auth` does not decode. -/
theorem not_hasBasic_iff (value : Bytes) :
    (value.length ≤ 6 ∨ ¬ strncasecmpEq 6 value (ascii "Basic ") = true) ↔
      ¬ HasScheme (ascii "Basic ") value := by
  rw [← hasBasic_iff, not_and_or, not_lt]

theorem checkBasicAuth_iff (core : Core w) (r : HttpRequest w) (mlcf : LocConf w)
    (hAlloc : core.alloc .decoded = true) :
    checkBasicAuth core r mlcf = rcOk ↔ mlcf.basicAuth = [] ∨ mlcf.basicAuth = ascii "off" ∨
      ∃ value, r.authorization = some value ∧ HasScheme (ascii "Basic ") value ∧
        core.decodeBase64 (value.drop 6) = some mlcf.basicAuth := by
  have hDeclined : rcDeclined ≠ rcOk := by decide
  rw [checkBasicAuth, ← or_assoc, ← isOff_iff]
  split
  · rename_i hOff
    exact iff_of_true rfl (Or.inl hOff)
  · rename_i hOn
    rw [or_iff_right hOn]
    cases hAuthorization : r.authorization with
    | none => simp [hDeclined]
    | some value =>
      simp only [hAlloc, Bool.not_true, Bool.false_eq_true, if_false, Option.some_inj, exists_eq_left']
      split
      · rename_i hNot
        exact iff_of_false hDeclined fun h => (not_hasBasic_iff value).mp hNot h.1
      · rename_i hBasic
        rw [not_hasBasic_iff, not_not] at hBasic
        rw [and_iff_right hBasic]
        cases core.decodeBase64 (value.drop 6) with
        | none => simp [hDeclined]
        | some decoded => simp [consttimeEq_eq_ok_iff]

/-- Both checks accept exactly the configured secret. -/
theorem checks_accept_secret (core : Core w) (r : HttpRequest w) (mlcf : LocConf w)
    (hAlloc : core.alloc .decoded = true) :
    (checkApiToken core r mlcf = rcOk ↔ mlcf.apiToken = [] ∨
      headerValue r (ascii "X-Monitor-Token") = some mlcf.apiToken ∨
      (∃ value, r.authorization = some value ∧ HasScheme (ascii "Bearer ") value ∧
        value.drop 7 = mlcf.apiToken) ∨
      core.arg r.args (ascii "token") = some mlcf.apiToken) ∧
    (checkBasicAuth core r mlcf = rcOk ↔ mlcf.basicAuth = [] ∨ mlcf.basicAuth = ascii "off" ∨
      ∃ value, r.authorization = some value ∧ HasScheme (ascii "Basic ") value ∧
        core.decodeBase64 (value.drop 6) = some mlcf.basicAuth) :=
  ⟨checkApiToken_iff core r mlcf, checkBasicAuth_iff core r mlcf hAlloc⟩

/-- A token in the second part of the list, under a name in another case. -/
theorem checks_accept_secret_second_part :
    checkApiToken Handlers.acceptingCore
        { Handlers.getRequest (ascii "/monitor/api") with
          headers := ⟨[⟨ascii "Host", ascii "a"⟩], [(⟨ascii "x-monitor-token", ascii "s3cret"⟩, [])]⟩ }
        { Handlers.defaultLocConf with apiToken := ascii "s3cret" } = rcOk := by
  refine (checks_accept_secret _ _ _ rfl).1.mpr (Or.inr (Or.inl ?_))
  decide

end HttpMonitoring.Credentials
