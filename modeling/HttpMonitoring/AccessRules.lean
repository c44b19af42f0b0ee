import HttpMonitoring.Handlers

/-!
# The access rules of a location

The directives `monitor_allow` and `monitor_deny` at the levels of the
configuration, the merge of the levels, and the decision of `match_access`
about an address. The core's `ngx_ptocidr` is a parameter.
-/

namespace HttpMonitoring.AccessRules

open Nginx Library.CString Exchange Access

variable {w : Nat}

inductive AccessCommand
  | monitorAllow
  | monitorDeny
deriving DecidableEq

def AccessCommand.name : AccessCommand → Bytes
  | .monitorAllow => ascii "monitor_allow"
  | .monitorDeny => ascii "monitor_deny"

structure AccessDirective where
  cmd : AccessCommand
  value : Bytes
deriving DecidableEq

section Parse

variable (ptocidr : Bytes → Option Cidr)

def isAll (value : Bytes) : Bool := value.length = 3 ∧ strncmpEq 3 value (ascii "all")

/-- The rule that a directive adds; an address that cannot be parsed fails the
configuration. -/
def accessRule (d : AccessDirective) : Option AccessRule :=
  let deny : Bool := d.cmd.name.length = (ascii "monitor_deny").length
  if isAll d.value then some ⟨deny, .unspec⟩ else (ptocidr d.value).map fun cidr => ⟨deny, cidr⟩

/-- The directives of a level in their order; a level without any has no array. -/
def accessRules : List AccessDirective → Option (Option (List AccessRule))
  | [] => some none
  | ds => (ds.mapM (accessRule ptocidr)).map some

end Parse

/-- The directives of a level as `create_loc_conf` and the directives leave
them; an absent value is one left unset. -/
structure LocDirectives (w : Nat) where
  enabled : Option Bool
  dashboard : Option Bool
  api : Option Bool
  sse : Option Bool
  apiToken : Option Bytes
  basicAuth : Option Bytes
  cors : Option Bytes
  rateLimit : Option (BitVec w)
  accessRules : Option (List AccessRule)

/-- The core's `ngx_conf_merge_value` and its siblings. -/
def mergeValue {α : Type*} (conf prev : Option α) (default : α) : Option α :=
  some ((conf.or prev).getD default)

def mergeLocConf (prev conf : LocDirectives w) : LocDirectives w where
  enabled := mergeValue conf.enabled prev.enabled false
  dashboard := mergeValue conf.dashboard prev.dashboard true
  api := mergeValue conf.api prev.api true
  sse := mergeValue conf.sse prev.sse true
  rateLimit := mergeValue conf.rateLimit prev.rateLimit (BitVec.ofNat w 60)
  apiToken := mergeValue conf.apiToken prev.apiToken []
  basicAuth := mergeValue conf.basicAuth prev.basicAuth []
  cors := mergeValue conf.cors prev.cors []
  accessRules :=
    match conf.accessRules with
    | none => prev.accessRules
    | some rules => some rules

/-- The configuration of a location, read after the merge of its levels. -/
def LocDirectives.locConf (d : LocDirectives w) : LocConf w where
  enabled := d.enabled.getD false
  dashboard := d.dashboard.getD true
  api := d.api.getD true
  sse := d.sse.getD true
  apiToken := d.apiToken.getD []
  basicAuth := d.basicAuth.getD []
  cors := d.cors.getD []
  rateLimit := d.rateLimit.getD (BitVec.ofNat w 60)
  accessRules := d.accessRules

/-- A level of the configuration: its access directives and all others. -/
structure Level (w : Nat) where
  access : List AccessDirective
  others : LocDirectives w

def Level.conf (ptocidr : Bytes → Option Cidr) (level : Level w) : Option (LocDirectives w) :=
  (accessRules ptocidr level.access).map fun rules => { level.others with accessRules := rules }

/-- The merge from the outermost level to the innermost one. -/
def configure (ptocidr : Bytes → Option Cidr) (outer : Level w) (inner : List (Level w)) :
    Option (LocDirectives w) :=
  (outer.conf ptocidr).bind fun conf =>
    inner.foldlM (fun prev level => (level.conf ptocidr).map (mergeLocConf prev)) conf

/-- The family of the client, and equal bits wherever the mask has one. -/
def Contains : Cidr → Sockaddr → Prop
  | .inet addr mask, .inet client => ∀ i, mask.getLsbD i = true → client.getLsbD i = addr.getLsbD i
  | .inet6 addr mask, .inet6 client => ∀ j i, (mask j).toBitVec.getLsbD i = true →
      (client j).toBitVec.getLsbD i = (addr j).toBitVec.getLsbD i
  | _, _ => False

/-- An address with a family, stored masked with its mask. -/
def Masked : Cidr → Prop
  | .unspec => False
  | .inet addr mask => addr &&& mask = addr
  | .inet6 addr mask => ∀ j, addr j &&& mask j = addr j

section Meaning

variable (ptocidr : Bytes → Option Cidr)

def Applies (sa : Sockaddr) (d : AccessDirective) : Prop :=
  d.value = ascii "all" ∨ ∃ cidr, ptocidr d.value = some cidr ∧ Contains cidr sa

def AccessDirective.verdict (d : AccessDirective) : Rc :=
  match d.cmd with
  | .monitorAllow => rcOk
  | .monitorDeny => rcDeclined

/-- The verdict of the first directive that applies, and `NGX_OK` without one. -/
def Decides (sa : Sockaddr) (ds : List AccessDirective) (rc : Rc) : Prop :=
  (∃ earlier d later, ds = earlier ++ d :: later ∧ (∀ e ∈ earlier, ¬ Applies ptocidr sa e) ∧
      Applies ptocidr sa d ∧ rc = d.verdict) ∨
    ((∀ d ∈ ds, ¬ Applies ptocidr sa d) ∧ rc = rcOk)

end Meaning

/-- The directives of the innermost level that has any. -/
def innermost (levels : List (List AccessDirective)) : List AccessDirective :=
  (levels.reverse.find? fun ds => ds ≠ []).getD []

theorem and_eq_and_iff {n : Nat} (client addr mask : BitVec n) :
    client &&& mask = addr &&& mask ↔
      ∀ i, mask.getLsbD i = true → client.getLsbD i = addr.getLsbD i := by
  constructor
  · intro h i hMask
    have hBit := congrArg (fun x => BitVec.getLsbD x i) h
    simpa [hMask] using hBit
  · intro h
    refine BitVec.eq_of_getLsbD_eq fun i _ => ?_
    cases hMask : mask.getLsbD i with
    | false => simp [hMask]
    | true => simp [hMask, h i hMask]

theorem covers_iff {cidr : Cidr} (hMasked : Masked cidr) (sa : Sockaddr) :
    cidr.covers sa = true ↔ Contains cidr sa := by
  cases cidr with
  | unspec => exact hMasked.elim
  | inet addr mask =>
    cases sa with
    | inet client =>
      have hAddr : addr &&& mask = addr := hMasked
      rw [Contains, ← and_eq_and_iff, hAddr]
      simp [Cidr.covers]
    | inet6 client => simp [Cidr.covers, Contains]
    | other => simp [Cidr.covers, Contains]
  | inet6 addr mask =>
    cases sa with
    | inet client => simp [Cidr.covers, Contains]
    | inet6 client =>
      have hAddr : ∀ j, addr j &&& mask j = addr j := hMasked
      have hByte : ∀ j, client j &&& mask j = addr j ↔ ∀ i, (mask j).toBitVec.getLsbD i = true →
          (client j).toBitVec.getLsbD i = (addr j).toBitVec.getLsbD i := by
        intro j
        rw [← and_eq_and_iff, ← UInt8.toBitVec_and, ← UInt8.toBitVec_and, hAddr, UInt8.toBitVec_inj]
      simp [Cidr.covers, Contains, hByte]
    | other => simp [Cidr.covers, Contains]

theorem isAll_iff (value : Bytes) : isAll value = true ↔ value = ascii "all" := by
  have hName : (0 : UInt8) ∉ ascii "all" := by decide
  rw [isAll, decide_eq_true_iff, ← strncmpEq_length_iff hName]
  rfl

theorem verdict_eq (d : AccessDirective) (cidr : Cidr) :
    AccessRule.verdict ⟨d.cmd.name.length = (ascii "monitor_deny").length, cidr⟩ = d.verdict := by
  obtain ⟨cmd, value⟩ := d
  cases cmd with
  | monitorAllow => rfl
  | monitorDeny => rfl

section FirstMatch

variable {ptocidr : Bytes → Option Cidr} (hMasked : ∀ value cidr, ptocidr value = some cidr → Masked cidr)
include hMasked

theorem accessRule_spec {d : AccessDirective} {rule : AccessRule} (h : accessRule ptocidr d = some rule)
    (sa : Sockaddr) : (rule.cidr.covers sa = true ↔ Applies ptocidr sa d) ∧ rule.verdict = d.verdict := by
  rw [accessRule] at h
  split at h
  · rename_i hAll
    obtain rfl := Option.some.inj h
    exact ⟨iff_of_true rfl (Or.inl ((isAll_iff _).mp hAll)), verdict_eq d _⟩
  · rename_i hAll
    obtain ⟨cidr, hCidr, rfl⟩ := Option.map_eq_some_iff.mp h
    refine ⟨?_, verdict_eq d _⟩
    rw [covers_iff (hMasked _ _ hCidr), Applies, or_iff_right fun hValue => hAll ((isAll_iff _).mpr hValue)]
    constructor
    · intro hContains
      exact ⟨cidr, hCidr, hContains⟩
    · rintro ⟨cidr', hCidr', hContains⟩
      rwa [Option.some.inj (hCidr.symm.trans hCidr')]

theorem decides_matchRules {ds : List AccessDirective} {rules : List AccessRule}
    (h : ds.mapM (accessRule ptocidr) = some rules) (sa : Sockaddr) :
    Decides ptocidr sa ds (matchRules sa rules) := by
  induction ds generalizing rules with
  | nil =>
    obtain rfl : [] = rules := by simpa using h
    exact Or.inr ⟨by simp, rfl⟩
  | cons d ds ih =>
    obtain ⟨rule, hRule, rest, hRest, rfl⟩ : ∃ rule, accessRule ptocidr d = some rule ∧
        ∃ rest, ds.mapM (accessRule ptocidr) = some rest ∧ rule :: rest = rules := by
      simpa [List.mapM_cons, Option.bind_eq_some_iff] using h
    obtain ⟨hCovers, hVerdict⟩ := accessRule_spec hMasked hRule sa
    cases hFirst : rule.cidr.covers sa with
    | true =>
      refine Or.inl ⟨[], d, ds, rfl, by simp, hCovers.mp hFirst, ?_⟩
      simp [matchRules, hFirst, hVerdict]
    | false =>
      have hNot : ¬ Applies ptocidr sa d := fun hd => by simp [hCovers.mpr hd] at hFirst
      have hStep : matchRules sa (rule :: rest) = matchRules sa rest := by simp [matchRules, hFirst]
      rw [hStep]
      rcases ih hRest with ⟨earlier, e, later, rfl, hEarlier, hApplies, hRc⟩ | ⟨hNone, hRc⟩
      · refine Or.inl ⟨d :: earlier, e, later, rfl, ?_, hApplies, hRc⟩
        exact List.forall_mem_cons.mpr ⟨hNot, hEarlier⟩
      · exact Or.inr ⟨List.forall_mem_cons.mpr ⟨hNot, hNone⟩, hRc⟩

theorem decides_matchAccess {ds : List AccessDirective} {mlcf : LocConf w}
    (h : accessRules ptocidr ds = some mlcf.accessRules) (r : HttpRequest w) :
    Decides ptocidr r.sockaddr ds (matchAccess r mlcf) := by
  cases ds with
  | nil =>
    have hNone : none = mlcf.accessRules := Option.some.inj h
    rw [matchAccess, ← hNone]
    exact Or.inr ⟨by simp, rfl⟩
  | cons d ds =>
    obtain ⟨rules, hRules, hSome⟩ := Option.map_eq_some_iff.mp h
    rw [matchAccess, ← hSome]
    exact decides_matchRules hMasked hRules r.sockaddr

end FirstMatch

theorem innermost_singleton (ds : List AccessDirective) : innermost [ds] = ds := by
  cases ds with
  | nil => rfl
  | cons d ds => rfl

theorem innermost_cons_cons (outer ds : List AccessDirective) (inner : List (List AccessDirective)) :
    innermost (outer :: ds :: inner) = innermost ((if ds = [] then outer else ds) :: inner) := by
  simp only [innermost, List.reverse_cons, List.append_assoc, List.find?_append]
  cases inner.reverse.find? fun ds => decide (ds ≠ []) with
  | some found => rfl
  | none =>
    cases ds with
    | nil => rfl
    | cons d ds => rfl

theorem conf_accessRules {ptocidr : Bytes → Option Cidr} {level : Level w} {conf : LocDirectives w}
    (h : level.conf ptocidr = some conf) : accessRules ptocidr level.access = some conf.accessRules := by
  obtain ⟨rules, hRules, rfl⟩ := Option.map_eq_some_iff.mp h
  exact hRules

theorem merged_accessRules {ptocidr : Bytes → Option Cidr} {prev conf : LocDirectives w}
    {outer ds : List AccessDirective} (hPrev : accessRules ptocidr outer = some prev.accessRules)
    (hConf : accessRules ptocidr ds = some conf.accessRules) :
    accessRules ptocidr (if ds = [] then outer else ds) = some (mergeLocConf prev conf).accessRules := by
  cases ds with
  | nil =>
    have hNone : none = conf.accessRules := Option.some.inj hConf
    simp [mergeLocConf, ← hNone, hPrev]
  | cons d ds =>
    obtain ⟨rules, hRules, hSome⟩ := Option.map_eq_some_iff.mp hConf
    have hMerged : (mergeLocConf prev conf).accessRules = conf.accessRules := by
      simp [mergeLocConf, ← hSome]
    rw [hMerged, ← hConf]
    rfl

/-- The merge keeps the array of the innermost level that has one. -/
theorem merge_accessRules {ptocidr : Bytes → Option Cidr} {outer : List AccessDirective}
    {inner : List (Level w)} {prev conf : LocDirectives w}
    (hPrev : accessRules ptocidr outer = some prev.accessRules)
    (h : inner.foldlM (fun prev level => (level.conf ptocidr).map (mergeLocConf prev)) prev = some conf) :
    accessRules ptocidr (innermost (outer :: inner.map Level.access)) = some conf.accessRules := by
  induction inner generalizing outer prev with
  | nil =>
    obtain rfl : prev = conf := by simpa using h
    rw [List.map_nil, innermost_singleton, hPrev]
  | cons level inner ih =>
    rw [List.foldlM_cons] at h
    obtain ⟨merged, hMerged, hRest⟩ := Option.bind_eq_some_iff.mp h
    obtain ⟨c, hLevel, rfl⟩ := Option.map_eq_some_iff.mp hMerged
    rw [List.map_cons, innermost_cons_cons]
    exact ih (merged_accessRules hPrev (conf_accessRules hLevel)) hRest

theorem matchAccess_first_match {ptocidr : Bytes → Option Cidr}
    (hMasked : ∀ value cidr, ptocidr value = some cidr → Masked cidr) {outer : Level w}
    {inner : List (Level w)} {conf : LocDirectives w} (h : configure ptocidr outer inner = some conf)
    (r : HttpRequest w) :
    Decides ptocidr r.sockaddr (innermost ((outer :: inner).map Level.access))
      (matchAccess r conf.locConf) := by
  obtain ⟨prev, hOuter, hInner⟩ := Option.bind_eq_some_iff.mp h
  exact decides_matchAccess hMasked (merge_accessRules (conf_accessRules hOuter) hInner) r

/-- An `ngx_ptocidr` that knows one network. -/
def privateNet (value : Bytes) : Option Cidr :=
  if value = ascii "10.0.0.0/8" then some (.inet 0x0a000000#32 0xff000000#32) else none

theorem masked_privateNet (value : Bytes) (cidr : Cidr) (h : privateNet value = some cidr) :
    Masked cidr := by
  rw [privateNet] at h
  split at h
  · rw [← Option.some.inj h, Masked]
    decide
  · cases h

def unsetLevel (access : List AccessDirective) : Level 64 :=
  ⟨access, ⟨none, none, none, none, none, none, none, none, none⟩⟩

def clientAt (sa : Sockaddr) : HttpRequest 64 :=
  { Handlers.getRequest (ascii "/monitor") with sockaddr := sa }

theorem matchAccess_first_match_two_levels :
    ∃ conf, configure privateNet (unsetLevel [⟨.monitorDeny, ascii "all"⟩])
        [unsetLevel [⟨.monitorAllow, ascii "10.0.0.0/8"⟩]] = some conf ∧
      Decides privateNet (.inet 0x0a010203#32)
        (innermost [[⟨.monitorDeny, ascii "all"⟩], [⟨.monitorAllow, ascii "10.0.0.0/8"⟩]])
        (matchAccess (clientAt (.inet 0x0a010203#32)) conf.locConf) := by
  have hConf : configure privateNet (unsetLevel [⟨.monitorDeny, ascii "all"⟩])
      [unsetLevel [⟨.monitorAllow, ascii "10.0.0.0/8"⟩]] = some _ := rfl
  exact ⟨_, hConf, matchAccess_first_match masked_privateNet hConf (clientAt (.inet 0x0a010203#32))⟩

/-- The address `::ffff:a`. -/
def mapped (a : BitVec 32) (j : Fin 16) : UInt8 :=
  if j < 10 then 0 else if j < 12 then 255 else UInt8.ofBitVec (a.extractLsb' (8 * (15 - j)) 8)

/-- The verdict of the first `all`, and `NGX_OK` without one. -/
def allVerdict (rules : List AccessRule) : Rc :=
  match rules.find? fun rule => rule.cidr = .unspec with
  | some rule => rule.verdict
  | none => rcOk

/-- The first rule that covers the address has another verdict than the first
`all`. -/
def CidrDiffers (a : BitVec 32) (rules : List AccessRule) : Prop :=
  ∃ earlier rule later, rules = earlier ++ rule :: later ∧
    (∀ e ∈ earlier, e.cidr.covers (.inet a) = false) ∧ rule.cidr.covers (.inet a) = true ∧
    rule.verdict ≠ allVerdict rules

theorem matchRules_eq_find (sa : Sockaddr) (rules : List AccessRule) :
    matchRules sa rules =
      match rules.find? fun rule => rule.cidr.covers sa with
      | some rule => rule.verdict
      | none => rcOk := by
  induction rules with
  | nil => rfl
  | cons rule rules ih =>
    cases hCovers : rule.cidr.covers sa with
    | true => simp [matchRules, hCovers]
    | false => simp [matchRules, hCovers, ih]

theorem matchRules_inet6 {rules : List AccessRule}
    (hRules : ∀ rule ∈ rules, ∀ addr mask, rule.cidr ≠ .inet6 addr mask) (client : Fin 16 → UInt8) :
    matchRules (.inet6 client) rules = allVerdict rules := by
  rw [matchRules_eq_find, allVerdict]
  have hSame : ∀ rule ∈ rules, rule.cidr.covers (.inet6 client) = decide (rule.cidr = .unspec) := by
    intro rule hRule
    cases hCidr : rule.cidr with
    | unspec => rfl
    | inet addr mask => rfl
    | inet6 addr mask => exact absurd hCidr (hRules rule hRule addr mask)
  rw [List.find?_congr hSame]

/-- Without a rule that covers the address there is no `all` either. -/
theorem allVerdict_of_uncovered {sa : Sockaddr} {rules : List AccessRule}
    (h : rules.find? (fun rule => rule.cidr.covers sa) = none) : allVerdict rules = rcOk := by
  have hNone : rules.find? (fun rule => rule.cidr = .unspec) = none := by
    rw [List.find?_eq_none] at h ⊢
    intro rule hRule hAll
    have hUnspec : rule.cidr = .unspec := by simpa using hAll
    exact h rule hRule (by rw [hUnspec]; rfl)
  rw [allVerdict, hNone]

theorem matchRules_ne_iff (a : BitVec 32) (rules : List AccessRule) :
    matchRules (.inet a) rules ≠ allVerdict rules ↔ CidrDiffers a rules := by
  rw [matchRules_eq_find]
  cases hFind : rules.find? fun rule => rule.cidr.covers (.inet a) with
  | none =>
    refine iff_of_false (not_not_intro (allVerdict_of_uncovered hFind).symm) ?_
    rintro ⟨earlier, rule, later, rfl, -, hCovers, -⟩
    exact List.find?_eq_none.mp hFind rule (by simp) hCovers
  | some rule =>
    obtain ⟨hCovers, earlier, later, hSplit, hEarlier⟩ := List.find?_eq_some_iff_append.mp hFind
    constructor
    · intro hNe
      exact ⟨earlier, rule, later, hSplit, fun e he => by simpa using hEarlier e he, hCovers, hNe⟩
    · rintro ⟨earlier', rule', later', hSplit', hEarlier', hCovers', hNe⟩
      have hFind' : rules.find? (fun rule => rule.cidr.covers (.inet a)) = some rule' :=
        List.find?_eq_some_iff_append.mpr
          ⟨hCovers', earlier', later', hSplit', fun e he => by simp [hEarlier' e he]⟩
      rwa [Option.some.inj (hFind.symm.trans hFind')]

/-- The CIDR rules do not apply to the mapped address, so the decisions differ
exactly when a CIDR rule decides otherwise than the first `all`. -/
theorem matchAccess_mapped (r : HttpRequest w) (mlcf : LocConf w) (a : BitVec 32) {rules : List AccessRule}
    (hRules : ∀ rule ∈ rules, ∀ addr mask, rule.cidr ≠ .inet6 addr mask) :
    matchAccess { r with sockaddr := .inet6 (mapped a) } { mlcf with accessRules := some rules } =
        allVerdict rules ∧
      (matchAccess { r with sockaddr := .inet a } { mlcf with accessRules := some rules } ≠
          matchAccess { r with sockaddr := .inet6 (mapped a) } { mlcf with accessRules := some rules } ↔
        CidrDiffers a rules) := by
  have hMapped := matchRules_inet6 hRules (mapped a)
  refine ⟨hMapped, ?_⟩
  have hIff := matchRules_ne_iff a rules
  rwa [← hMapped] at hIff

theorem matchAccess_mapped_deny :
    matchAccess (clientAt (.inet6 (mapped 0x0a010203#32)))
        { Handlers.defaultLocConf with
          accessRules := some [⟨true, .inet 0x0a000000#32 0xff000000#32⟩] } =
      allVerdict [⟨true, .inet 0x0a000000#32 0xff000000#32⟩] :=
  (matchAccess_mapped (clientAt .other) Handlers.defaultLocConf 0x0a010203#32 (by simp)).1

theorem mapped_client_passes_deny :
    matchAccess (clientAt (.inet 0x0a010203#32))
        { Handlers.defaultLocConf with
          accessRules := some [⟨true, .inet 0x0a000000#32 0xff000000#32⟩] } = rcDeclined ∧
      matchAccess (clientAt (.inet6 (mapped 0x0a010203#32)))
        { Handlers.defaultLocConf with
          accessRules := some [⟨true, .inet 0x0a000000#32 0xff000000#32⟩] } = rcOk :=
  ⟨by decide, by decide⟩

end HttpMonitoring.AccessRules
