import Rumble.Server.LinkRules
import Mathlib.Data.List.Sublists

/-!
# Cleaning one URL

`clean_url` of `link_cleaner.rs`: the query pairs that a global pattern or the rule of the host
removes are dropped and the rest is written back. The `url` crate is a parameter; `RoundTrips` is
what is assumed of it for a rewritten query.
-/

namespace Rumble.Server

open Rumble.Lib

/-- What `clean_url` calls of the `url` crate. `setQueryPairs` is
`query_pairs_mut().clear().extend_pairs(..)`. -/
structure UrlApi (Url : Type) where
  parse : Str → Option Url
  query : Url → Option Str
  hostStr : Url → Option Str
  queryPairs : Url → List (Str × Str)
  setQueryNone : Url → Url
  setQueryPairs : Url → List (Str × Str) → Url
  toText : Url → Str

/-- `global_strip.iter().any(..)` -/
def anyGlob (key : Str) : List Str → Option Bool
  | [] => some false
  | pattern :: patterns => match globMatch pattern key with
    | none => none
    | some true => some true
    | some false => anyGlob key patterns

namespace LinkRules

variable (rules : LinkRules)

/-- The loop over the pairs: those kept, and whether one was not. -/
def keepPairs (allowed : List Str) : List (Str × Str) → Option (List (Str × Str) × Bool)
  | [] => some ([], false)
  | (k, v) :: pairs => match anyGlob k rules.globalStrip with
    | none => none
    | some true => (keepPairs allowed pairs).map fun e => (e.1, true)
    | some false =>
      if !allowed.isEmpty then
        if allowed.contains k then
          (keepPairs allowed pairs).map fun e => ((k, v) :: e.1, e.2)
        else (keepPairs allowed pairs).map fun e => (e.1, true)
      else (keepPairs allowed pairs).map fun e => ((k, v) :: e.1, e.2)

/-- What is kept of the pairs under a rule. -/
def cleanPairs (rule : Option DomainRule) (pairs : List (Str × Str)) :
    Option (List (Str × Str) × Bool) :=
  if rule.any DomainRule.removeAllParams then some ([], true)
  else rules.keepPairs (rule.elim [] DomainRule.allowedParams) pairs

variable {Url : Type} (api : UrlApi Url)

def cleanUrl (raw : Str) : Option (Option Str) :=
  match api.parse raw with
  | none => some none
  | some url => match api.query url, api.hostStr url with
    | some _, some host => match rules.matchDomain host.toAsciiLowercase with
      | none => none
      | some rule =>
        if (api.queryPairs url).isEmpty then some none
        else match rules.cleanPairs rule (api.queryPairs url) with
          | none => none
          | some (kept, changed) =>
            if !changed then some none
            else if kept.isEmpty then some (some (api.toText (api.setQueryNone url)))
            else some (some (api.toText (api.setQueryPairs url kept)))
    | _, _ => some none

/-! ## Which parameters go -/

/-- The rule removes all parameters, a global pattern denotes the key, or the rule allows some keys
and not this one. -/
def Removed (rule : Option DomainRule) (key : Str) : Prop :=
  (∃ r ∈ rule, r.removeAllParams = true) ∨
  (∃ pattern ∈ rules.globalStrip, Glob.Denotes '*' pattern key) ∨
  ∃ r ∈ rule, r.allowedParams ≠ [] ∧ key ∉ r.allowedParams

/-- `Removed` as the code finds it out. -/
def removes (rule : Option DomainRule) (key : Str) : Bool :=
  rule.any DomainRule.removeAllParams ||
  rules.globalStrip.any (fun pattern => globMatch pattern key == some true) ||
  rule.any fun r => !r.allowedParams.isEmpty && !r.allowedParams.contains key

end LinkRules

theorem globMatch_eq_true {pattern text : Str} :
    globMatch pattern text = some true ↔ Glob.Denotes '*' pattern text := by
  obtain ⟨b, hb, hiff⟩ := globMatch_iff pattern text
  rw [hb, Option.some_inj, hiff]

theorem anyGlob_eq (key : Str) (patterns : List Str) :
    anyGlob key patterns = some (patterns.any fun p => globMatch p key == some true) := by
  induction patterns with
  | nil => rfl
  | cons pattern patterns ih =>
    obtain ⟨b, hb, -⟩ := globMatch_iff pattern key
    unfold anyGlob
    rw [List.any_cons, hb]
    cases b with
    | true => rfl
    | false => exact ih

namespace LinkRules

variable {rules : LinkRules} {rule : Option DomainRule}

theorem removes_iff {key : Str} : rules.removes rule key = true ↔ rules.Removed rule key := by
  unfold removes Removed
  simp only [Bool.or_eq_true, or_assoc, Option.any_eq_true, List.any_eq_true, beq_iff_eq,
    globMatch_eq_true, Bool.and_eq_true, Bool.not_eq_true', List.isEmpty_eq_false_iff,
    List.contains_eq_mem, decide_eq_false_iff_not, Option.mem_def]

instance (key : Str) : Decidable (rules.Removed rule key) := decidable_of_iff _ removes_iff

theorem keepPairs_eq (hall : rule.any DomainRule.removeAllParams = false)
    (pairs : List (Str × Str)) :
    rules.keepPairs (rule.elim [] DomainRule.allowedParams) pairs =
      some (pairs.filter fun e => !rules.removes rule e.1,
        pairs.any fun e => rules.removes rule e.1) := by
  induction pairs with
  | nil => rfl
  | cons e pairs ih =>
    obtain ⟨k, v⟩ := e
    unfold keepPairs
    rw [anyGlob_eq, ih]
    have hremoves : rules.removes rule k =
        (rules.globalStrip.any (fun p => globMatch p k == some true) ||
          rule.any fun r => !r.allowedParams.isEmpty && !r.allowedParams.contains k) := by
      rw [removes, hall, Bool.false_or]
    rw [List.filter_cons, List.any_cons, hremoves]
    cases rules.globalStrip.any fun p => globMatch p k == some true with
    | true => simp
    | false =>
      cases rule with
      | none => simp
      | some r =>
        by_cases hempty : r.allowedParams = []
        · simp [hempty]
        · by_cases hk : k ∈ r.allowedParams <;> simp [hempty, hk]

/-- **What is kept are the pairs that are not removed.** -/
theorem cleanPairs_eq (pairs : List (Str × Str)) (hne : pairs ≠ []) :
    rules.cleanPairs rule pairs =
      some (pairs.filter fun e => !rules.removes rule e.1,
        pairs.any fun e => rules.removes rule e.1) := by
  unfold cleanPairs
  cases hall : rule.any DomainRule.removeAllParams with
  | false => exact keepPairs_eq hall pairs
  | true =>
    have hremoves : ∀ key, rules.removes rule key = true := fun key => by simp [removes, hall]
    obtain ⟨e, pairs, rfl⟩ := List.exists_cons_of_ne_nil hne
    simp [hremoves]

end LinkRules

/-! ## The round trip -/

/-- What is documented of the `url` crate. `parts` are the components other than the query. Taking
the query off or writing other pairs into it keeps these, the pairs written are those read, and the
text of a rewritten URL parses back to it. -/
structure RoundTrips {Url Parts : Type} (api : UrlApi Url) (parts : Url → Parts) : Prop where
  hostStr : ∀ u v, parts u = parts v → api.hostStr u = api.hostStr v
  queryPairs_none : ∀ u, api.query u = none → api.queryPairs u = []
  query_setQueryNone : ∀ u, api.query (api.setQueryNone u) = none
  parts_setQueryNone : ∀ u, parts (api.setQueryNone u) = parts u
  queryPairs_setQueryPairs : ∀ u kept, kept ≠ [] → api.queryPairs (api.setQueryPairs u kept) = kept
  parts_setQueryPairs : ∀ u kept, kept ≠ [] → parts (api.setQueryPairs u kept) = parts u
  parse_setQueryNone : ∀ raw u, api.parse raw = some u →
    api.parse (api.toText (api.setQueryNone u)) = some (api.setQueryNone u)
  parse_setQueryPairs : ∀ raw u kept, api.parse raw = some u → kept ≠ [] →
    kept.Sublist (api.queryPairs u) →
    api.parse (api.toText (api.setQueryPairs u kept)) = some (api.setQueryPairs u kept)

namespace LinkRules

variable {Url Parts : Type} {api : UrlApi Url} {parts : Url → Parts} (rules : LinkRules)

/-- `raw` parses to a URL with a query and with a host, whose rule is `rule`. -/
structure Cleanable (api : UrlApi Url) (rules : LinkRules) (raw : Str) (url : Url)
    (rule : Option DomainRule) : Prop where
  parse : api.parse raw = some url
  query : ∃ query, api.query url = some query
  rule : ∃ host, api.hostStr url = some host ∧
    rules.matchDomain host.toAsciiLowercase = some rule

/-- With a host, a query and a rule, the answer depends on the parameters that the rule removes. -/
theorem cleanUrl_of_cleanable {raw : Str} {url : Url} {rule : Option DomainRule}
    (h : Cleanable api rules raw url rule) :
    rules.cleanUrl api raw = some (
      if (api.queryPairs url).any fun e => rules.removes rule e.1 then
        let kept := (api.queryPairs url).filter fun e => !rules.removes rule e.1
        if kept.isEmpty then some (api.toText (api.setQueryNone url))
        else some (api.toText (api.setQueryPairs url kept))
      else none) := by
  obtain ⟨hparse, ⟨query, hquery⟩, host, hhost, hrule⟩ := h
  unfold cleanUrl
  simp only [hparse, hquery, hhost, hrule]
  by_cases hempty : api.queryPairs url = []
  · simp [hempty]
  · rw [if_neg (by simpa using hempty), cleanPairs_eq _ hempty]
    cases (api.queryPairs url).any fun e => rules.removes rule e.1 with
    | false => rfl
    | true =>
      simp only [Bool.not_true, Bool.false_eq_true, if_false, if_true]
      split <;> rfl

/-- Otherwise nothing is returned. -/
theorem cleanUrl_of_not_cleanable {raw : Str}
    (h : ¬ ∃ url rule, Cleanable api rules raw url rule) : rules.cleanUrl api raw = some none := by
  unfold cleanUrl
  cases hparse : api.parse raw with
  | none => rfl
  | some url =>
    cases hquery : api.query url with
    | none => simp [hquery]
    | some query =>
      cases hhost : api.hostStr url with
      | none => simp [hhost]
      | some host =>
        exact absurd ⟨url, _, hparse, ⟨query, hquery⟩, host, hhost, rules.matchDomain_eq _⟩ h

/-- The rewritten URL parses back: the other parts are the same and the pairs are those kept. -/
theorem cleanUrl_some (h : RoundTrips api parts) {raw c : Str}
    (hclean : rules.cleanUrl api raw = some (some c)) :
    ∃ url rule url', Cleanable api rules raw url rule ∧ api.parse c = some url' ∧
      parts url' = parts url ∧
      api.queryPairs url' = (api.queryPairs url).filter fun e => !rules.removes rule e.1 := by
  by_cases hex : ∃ url rule, Cleanable api rules raw url rule
  swap
  · rw [rules.cleanUrl_of_not_cleanable hex] at hclean
    cases hclean
  obtain ⟨url, rule, hc⟩ := hex
  rw [rules.cleanUrl_of_cleanable hc, Option.some_inj] at hclean
  split at hclean
  swap
  · cases hclean
  simp only at hclean
  by_cases hkept : ((api.queryPairs url).filter fun e => !rules.removes rule e.1) = []
  · rw [if_pos (by rw [hkept]; rfl), Option.some_inj] at hclean
    refine ⟨url, rule, api.setQueryNone url, hc, ?_, h.parts_setQueryNone url, ?_⟩
    · rw [← hclean, h.parse_setQueryNone raw url hc.parse]
    · rw [hkept, h.queryPairs_none _ (h.query_setQueryNone url)]
  · rw [if_neg (by simpa using hkept), Option.some_inj] at hclean
    refine ⟨url, rule, api.setQueryPairs url _, hc, ?_, h.parts_setQueryPairs url _ hkept,
      h.queryPairs_setQueryPairs url _ hkept⟩
    rw [← hclean, h.parse_setQueryPairs raw url _ hc.parse hkept List.filter_sublist]

/-- Nothing is returned where no parameter would go. -/
theorem cleanUrl_eq_none_iff (raw : Str) :
    rules.cleanUrl api raw = some none ↔ ∀ url rule, Cleanable api rules raw url rule →
      ∀ e ∈ api.queryPairs url, ¬ rules.Removed rule e.1 := by
  constructor
  · intro hnone url rule hc e he hremoved
    have hany : ((api.queryPairs url).any fun e => rules.removes rule e.1) = true :=
      List.any_eq_true.mpr ⟨e, he, removes_iff.mpr hremoved⟩
    rw [rules.cleanUrl_of_cleanable hc, if_pos hany, Option.some_inj] at hnone
    simp only at hnone
    split at hnone <;> cases hnone
  · intro hkeep
    by_cases hex : ∃ url rule, Cleanable api rules raw url rule
    · obtain ⟨url, rule, hc⟩ := hex
      rw [rules.cleanUrl_of_cleanable hc, if_neg]
      intro hany
      obtain ⟨e, he, hremoves⟩ := List.any_eq_true.mp hany
      exact hkeep url rule hc e he (removes_iff.mp hremoves)
    · exact rules.cleanUrl_of_not_cleanable hex

theorem exists_cleanUrl (raw : Str) : ∃ cleaned, rules.cleanUrl api raw = some cleaned := by
  by_cases hex : ∃ url rule, Cleanable api rules raw url rule
  · obtain ⟨url, rule, hc⟩ := hex
    exact ⟨_, rules.cleanUrl_of_cleanable hc⟩
  · exact ⟨none, rules.cleanUrl_of_not_cleanable hex⟩

/-- A cleaned URL has nothing left to remove. -/
theorem cleanUrl_cleaned (h : RoundTrips api parts) {raw c : Str}
    (hclean : rules.cleanUrl api raw = some (some c)) : rules.cleanUrl api c = some none := by
  obtain ⟨url, rule, url', hc, hparse, hparts, hpairs⟩ := rules.cleanUrl_some h hclean
  rw [cleanUrl_eq_none_iff]
  rintro url₂ rule₂ ⟨hparse₂, -, host, hhost, hrule⟩ e he
  -- the same host, so the same rule
  obtain rfl : url' = url₂ := Option.some_inj.mp (hparse.symm.trans hparse₂)
  obtain ⟨host', hhost', hrule'⟩ := hc.rule
  rw [h.hostStr _ _ hparts, hhost', Option.some_inj] at hhost
  subst hhost
  obtain rfl : rule = rule₂ := Option.some_inj.mp (hrule'.symm.trans hrule)
  rw [hpairs] at he
  intro hremoved
  rw [← removes_iff] at hremoved
  simp [hremoved] at he

/-- **Cleaning is conservative and idempotent.** -/
theorem cleanUrl_spec (h : RoundTrips api parts) (raw : Str) :
    ∃ cleaned, rules.cleanUrl api raw = some cleaned ∧
      (cleaned = none ↔ ∀ url rule, Cleanable api rules raw url rule →
        ∀ e ∈ api.queryPairs url, ¬ rules.Removed rule e.1) ∧
      ∀ c, cleaned = some c → rules.cleanUrl api c = some none ∧
        ∃ url rule url', Cleanable api rules raw url rule ∧ api.parse c = some url' ∧
          parts url' = parts url ∧
          api.queryPairs url' = (api.queryPairs url).filter fun e => ¬ rules.Removed rule e.1 := by
  obtain ⟨cleaned, hcleaned⟩ := @exists_cleanUrl Url api rules raw
  refine ⟨cleaned, hcleaned, ?_, ?_⟩
  · rw [← rules.cleanUrl_eq_none_iff, hcleaned, Option.some_inj]
  · rintro c rfl
    obtain ⟨url, rule, url', hc, hparse, hparts, hpairs⟩ := rules.cleanUrl_some h hcleaned
    refine ⟨rules.cleanUrl_cleaned h hcleaned, url, rule, url', hc, hparse, hparts, ?_⟩
    rw [hpairs]
    refine List.filter_congr fun e _ => ?_
    rw [Bool.eq_iff_iff, decide_eq_true_iff, ← removes_iff, Bool.not_eq_true', Bool.not_eq_true]

end LinkRules

/-! A URL of one page with any of two parameters, read and written as the crate does it. -/

structure SampleUrl where
  page : Str
  pairs : Option (List (Str × Str))
  deriving DecidableEq

def sampleQueryText (pairs : List (Str × Str)) : Str :=
  ['&'].intercalate (pairs.map fun e => e.1 ++ '=' :: e.2)

def sampleUrlText (u : SampleUrl) : Str :=
  u.page ++ u.pairs.elim [] fun pairs => '?' :: sampleQueryText pairs

def samplePairs : List (Str × Str) :=
  [("t".toList, "30".toList), ("utm_medium".toList, "x".toList)]

def sampleUrls : List SampleUrl :=
  [none, some [("t".toList, "30".toList)], some [("utm_medium".toList, "x".toList)],
    some samplePairs].map (SampleUrl.mk "https://youtu.be/a".toList)

def sampleUrlApi : UrlApi SampleUrl where
  parse raw := sampleUrls.find? fun u => sampleUrlText u == raw
  query u := u.pairs.map sampleQueryText
  hostStr _ := some "youtu.be".toList
  queryPairs u := u.pairs.getD []
  setQueryNone u := { u with pairs := none }
  setQueryPairs u kept := { u with pairs := some kept }
  toText := sampleUrlText

theorem mem_sampleUrls {raw : Str} {u : SampleUrl} (h : sampleUrlApi.parse raw = some u) :
    u ∈ sampleUrls := by
  have hfind : sampleUrls.find? (fun u => sampleUrlText u == raw) = some u := h
  exact List.mem_of_find?_eq_some hfind

theorem roundTrips_sampleUrlApi : RoundTrips sampleUrlApi SampleUrl.page where
  hostStr _ _ _ := rfl
  queryPairs_none u h := by
    obtain ⟨page, pairs⟩ := u
    cases pairs with
    | none => rfl
    | some pairs => cases h
  query_setQueryNone _ := rfl
  parts_setQueryNone _ := rfl
  queryPairs_setQueryPairs _ _ _ := rfl
  parts_setQueryPairs _ _ _ := rfl
  parse_setQueryNone raw u h := by
    have hall : ∀ u ∈ sampleUrls,
        sampleUrlApi.parse (sampleUrlText { u with pairs := none }) =
          some { u with pairs := none } := by decide
    exact hall u (mem_sampleUrls h)
  parse_setQueryPairs raw u kept h hkept hsub := by
    have hall : ∀ u ∈ sampleUrls, ∀ kept ∈ (u.pairs.getD []).sublists, kept ≠ [] →
        sampleUrlApi.parse (sampleUrlText { u with pairs := some kept }) =
          some { u with pairs := some kept } := by decide
    exact hall u (mem_sampleUrls h) kept (List.mem_sublists.mpr hsub) hkept

def sampleStripRules : LinkRules where
  globalStrip := ["utm_*".toList]
  domains := (∅ : Table Str DomainRule).set "youtu.be".toList (sampleKeep "t")

theorem cleanUrl_spec_sample :
    let raw := "https://youtu.be/a?t=30&utm_medium=x".toList
    let cleaned := "https://youtu.be/a?t=30".toList
    sampleStripRules.cleanUrl sampleUrlApi raw = some (some cleaned) ∧
      sampleStripRules.cleanUrl sampleUrlApi cleaned = some none := by
  intro raw cleaned
  have hrun : sampleStripRules.cleanUrl sampleUrlApi raw = some (some cleaned) := by decide
  obtain ⟨out, hout, -, hsome⟩ := sampleStripRules.cleanUrl_spec roundTrips_sampleUrlApi raw
  exact ⟨hrun, (hsome cleaned (Option.some_inj.mp (hout.symm.trans hrun))).1⟩

end Rumble.Server
