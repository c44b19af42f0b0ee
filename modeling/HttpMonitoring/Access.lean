import HttpMonitoring.Exchange
import HttpMonitoring.RateLimit

/-!
# The four checks

`match_access`, `check_basic_auth`, `check_api_token` and `check_rate_limit`,
with the comparison of secrets and the search for a header that they use. Each
answers `NGX_OK` or `NGX_DECLINED`.
-/

namespace HttpMonitoring.Access

open Nginx Library.CString Exchange

variable {w : Nat}

inductive Cidr
  | unspec
  | inet (addr mask : BitVec 32)
  | inet6 (addr mask : Fin 16 → UInt8)
deriving DecidableEq

structure AccessRule where
  deny : Bool
  cidr : Cidr
deriving DecidableEq

structure LocConf (w : Nat) where
  enabled : Bool
  dashboard : Bool
  api : Bool
  sse : Bool
  apiToken : Bytes
  basicAuth : Bytes
  cors : Bytes
  rateLimit : BitVec w
  accessRules : Option (List AccessRule)
deriving DecidableEq

/-- A string directive that is empty or says `off`. -/
def isOff (value : Bytes) : Bool :=
  value.length = 0 ∨ value.length = 3 ∧ strncmpEq 3 value (ascii "off")

def AccessRule.verdict (rule : AccessRule) : Rc := if rule.deny then rcDeclined else rcOk

/-- The tests of the loop on one rule: `all`, or the family and the masked address. -/
def Cidr.covers : Cidr → Sockaddr → Bool
  | .unspec, _ => true
  | .inet addr mask, .inet client => client &&& mask = addr
  | .inet6 addr mask, .inet6 client =>
    (List.finRange 16).all fun j => client j &&& mask j = addr j
  | _, _ => false

def matchRules (sa : Sockaddr) : List AccessRule → Rc
  | [] => rcOk
  | rule :: rules => if rule.cidr.covers sa then rule.verdict else matchRules sa rules

def matchAccess (r : HttpRequest w) (mlcf : LocConf w) : Rc :=
  match mlcf.accessRules with
  | none => rcOk
  | some rules => matchRules r.sockaddr rules

/-- The bytes are compared past the end of the shorter string, as zeros. -/
def consttimeEq (a b : Bytes) : Rc :=
  let max := if b.length < a.length then a.length else b.length
  let diff := (List.range max).foldl
    (fun diff i => diff ||| (a.getD i 0 ^^^ b.getD i 0).toNat) (a.length ^^^ b.length)
  if diff = 0 then rcOk else rcDeclined

/-- The core's `ngx_tolower`. -/
def toLower (c : UInt8) : UInt8 := if 65 ≤ c ∧ c ≤ 90 then c ||| 32 else c

/-- The core's `ngx_strncasecmp`, as a test for equality. -/
def strncasecmpEq (n : Nat) (a b : Bytes) : Bool := strncmpEq n (a.map toLower) (b.map toLower)

def checkBasicAuth (core : Core w) (r : HttpRequest w) (mlcf : LocConf w) : Rc :=
  if isOff mlcf.basicAuth then rcOk
  else
    match r.authorization with
    | none => rcDeclined
    | some value =>
      if value.length ≤ 6 ∨ ¬ strncasecmpEq 6 value (ascii "Basic ") then rcDeclined
      else if !core.alloc .decoded then rcDeclined
      else
        match core.decodeBase64 (value.drop 6) with
        | none => rcDeclined
        | some decoded => consttimeEq decoded mlcf.basicAuth

def named (name : Bytes) (h : Header) : Bool :=
  h.key.length = name.length ∧ strncasecmpEq name.length h.key name

/-- The search in a part of the list and in the parts behind it. -/
def findInParts (name : Bytes) : List Header → List (Header × List Header) → Option Header
  | part, [] => part.find? (named name)
  | part, (h, elts) :: next => (part.find? (named name)).or (findInParts name (h :: elts) next)

def findHeader (r : HttpRequest w) (name : Bytes) : Option Header :=
  findInParts name r.headers.first r.headers.rest

/-- A secret presented in one of the places of a request. -/
def presents (secret : Option Bytes) (expected : Bytes) : Bool :=
  secret.any fun token => consttimeEq token expected = rcOk

def bearer (r : HttpRequest w) : Option Bytes :=
  r.authorization.bind fun value =>
    if 7 < value.length ∧ strncasecmpEq 7 value (ascii "Bearer ") then some (value.drop 7) else none

def checkApiToken (core : Core w) (r : HttpRequest w) (mlcf : LocConf w) : Rc :=
  if mlcf.apiToken.length = 0 then rcOk
  else if presents ((findHeader r (ascii "X-Monitor-Token")).map Header.value) mlcf.apiToken then rcOk
  else if presents (bearer r) mlcf.apiToken then rcOk
  else if presents (core.arg r.args (ascii "token")) mlcf.apiToken then rcOk
  else rcDeclined

def limiter (sh : Shctx w) : RateLimit.Limiter w :=
  ⟨sh.rateLimitWindow, sh.rateLimitCount, sh.connections.rateLimited⟩

def withLimiter (sh : Shctx w) (l : RateLimit.Limiter w) : Shctx w :=
  { sh with
    rateLimitWindow := l.window
    rateLimitCount := l.count
    connections := { sh.connections with rateLimited := l.rateLimited } }

def checkRateLimit (core : Core w) (mlcf : LocConf w) (s : State w) : Rc × State w :=
  if mlcf.rateLimit = 0 then (rcOk, s)
  else
    match s.mmcf, s.getShctx with
    | some mmcf, some sh =>
      if !mmcf.shpool then (rcOk, s)
      else
        let answer := RateLimit.checkRateLimit mlcf.rateLimit core.clock.time (limiter sh)
        (answer.1, s.putShctx (withLimiter sh answer.2))
    | _, _ => (rcOk, s)

def IsVerdict (rc : Rc) : Prop := rc = rcOk ∨ rc = rcDeclined

theorem isVerdict_ok : IsVerdict rcOk := Or.inl rfl

theorem isVerdict_declined : IsVerdict rcDeclined := Or.inr rfl

theorem IsVerdict.declined_iff {rc : Rc} (h : IsVerdict rc) : rc = rcDeclined ↔ rc ≠ rcOk := by
  rcases h with rfl | rfl
  · simp [rcOk, rcDeclined]
  · simp [rcOk, rcDeclined]

theorem isVerdict_ite {p : Prop} [Decidable p] {a b : Rc} (ha : IsVerdict a) (hb : IsVerdict b) :
    IsVerdict (if p then a else b) := by
  split
  · exact ha
  · exact hb

theorem isVerdict_verdict (rule : AccessRule) : IsVerdict rule.verdict :=
  isVerdict_ite isVerdict_declined isVerdict_ok

theorem isVerdict_matchRules (sa : Sockaddr) (rules : List AccessRule) :
    IsVerdict (matchRules sa rules) := by
  induction rules with
  | nil => exact isVerdict_ok
  | cons rule rules ih => exact isVerdict_ite (isVerdict_verdict rule) ih

theorem isVerdict_matchAccess (r : HttpRequest w) (mlcf : LocConf w) :
    IsVerdict (matchAccess r mlcf) := by
  rw [matchAccess]
  split
  · exact isVerdict_ok
  · exact isVerdict_matchRules _ _

theorem isVerdict_consttimeEq (a b : Bytes) : IsVerdict (consttimeEq a b) :=
  isVerdict_ite isVerdict_ok isVerdict_declined

theorem isVerdict_checkBasicAuth (core : Core w) (r : HttpRequest w) (mlcf : LocConf w) :
    IsVerdict (checkBasicAuth core r mlcf) := by
  refine isVerdict_ite isVerdict_ok ?_
  split
  · exact isVerdict_declined
  · refine isVerdict_ite isVerdict_declined (isVerdict_ite isVerdict_declined ?_)
    split
    · exact isVerdict_declined
    · exact isVerdict_consttimeEq _ _

theorem isVerdict_checkApiToken (core : Core w) (r : HttpRequest w) (mlcf : LocConf w) :
    IsVerdict (checkApiToken core r mlcf) :=
  isVerdict_ite isVerdict_ok (isVerdict_ite isVerdict_ok (isVerdict_ite isVerdict_ok
    (isVerdict_ite isVerdict_ok isVerdict_declined)))

theorem isVerdict_rateLimit (limit now : BitVec w) (l : RateLimit.Limiter w) :
    IsVerdict (RateLimit.checkRateLimit limit now l).1 := by
  simp only [RateLimit.checkRateLimit, RateLimit.Limiter.countCall]
  split
  · exact isVerdict_ok
  · split
    · exact isVerdict_declined
    · exact isVerdict_ok

/-- The limiter answers with a verdict and leaves the response and the
transcript alone. -/
theorem checkRateLimit_spec (core : Core w) (mlcf : LocConf w) (s : State w) :
    IsVerdict (checkRateLimit core mlcf s).1 ∧
      (checkRateLimit core mlcf s).2.trace = s.trace ∧
      (checkRateLimit core mlcf s).2.response = s.response := by
  rw [checkRateLimit]
  split
  · exact ⟨isVerdict_ok, rfl, rfl⟩
  · split
    · split
      · exact ⟨isVerdict_ok, rfl, rfl⟩
      · exact ⟨isVerdict_rateLimit _ _ _, rfl, rfl⟩
    · exact ⟨isVerdict_ok, rfl, rfl⟩

end HttpMonitoring.Access
