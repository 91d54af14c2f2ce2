import Rumble.Lib.Glob
import Rumble.Lib.Table

/-!
# The rules of the link cleaner

`glob_match` and `match_domain` of `link_cleaner.rs`. `glob_match` cuts a pattern at its stars and
takes the first occurrence of each part; `globMatch_iff` says that it decides what the pattern
denotes and slices the text at characters. `match_domain` tries the wildcards of each form of the
host before the next form, in the order of the map; `pickedByPriority_iff` says for which tables
this is the documented priority. A function that panics gives `none`.
-/

namespace Rumble.Server

open Rumble.Lib
open String (utf8Len)

/-! ## Glob patterns -/

/-- `&parts[i..j]` -/
def subslice? {α : Type} (l : List α) (i j : Nat) : Option (List α) :=
  if i ≤ j ∧ j ≤ l.length then some ((l.take j).drop i) else none

/-- The loop of `glob_match` over the parts in the middle, at the byte `pos` of the text. -/
def globLoop (text : Str) (stop : Nat) : Nat → List Str → Option Bool
  | _, [] => some true
  | pos, part :: parts =>
    if part.isEmpty then globLoop text stop pos parts
    else match text.slice? pos stop with
      | none => none
      | some window => match window.find part with
        | some idx => globLoop text stop (pos + idx + utf8Len part) parts
        | none => some false

def globMatch (pattern text : Str) : Option Bool :=
  if '*' ∉ pattern then some (pattern == text)
  else
    let parts := pattern.splitOn '*'
    let n := parts.length
    match parts[0]?, parts[n - 1]? with
    | some first, some last =>
      if !first.isPrefixOf text || !last.isSuffixOf text then some false
      else if utf8Len first + utf8Len last > utf8Len text then some false
      else (subslice? parts 1 (n - 1)).bind
        (globLoop text (utf8Len text - utf8Len last) (utf8Len first))
    | _, _ => none

/-- The loop decides whether the parts occur in order in the window. -/
theorem globLoop_spec (z : Str) (parts : List Str) : ∀ pre window : Str,
    ∃ b, globLoop (pre ++ (window ++ z)) (utf8Len pre + utf8Len window) (utf8Len pre) parts = some b ∧
      (b = true ↔ Glob.OccursIn parts window) := by
  induction parts with
  | nil => exact fun pre window => ⟨true, rfl, by simp [Glob.OccursIn]⟩
  | cons part parts ih =>
    intro pre window
    unfold globLoop
    by_cases hempty : part = []
    · subst hempty
      obtain ⟨b, hloop, hb⟩ := ih pre window
      exact ⟨b, hloop, hb.trans (Glob.occursIn_cons List.dropInfix?_nil).symm⟩
    · rw [if_neg (by simpa using hempty), Str.slice?_append]
      cases hfind : window.dropInfix? part with
      | none =>
        refine ⟨false, by simp only [Str.find, hfind, Option.map_none], ?_⟩
        have hnot : ¬ Glob.OccursIn (part :: parts) window := by
          rintro ⟨a, b, rfl, -⟩
          exact dropInfix?_eq_none.mp hfind ⟨a, b, rfl⟩
        simp [hnot]
      | some e =>
        obtain ⟨a, rest⟩ := e
        obtain ⟨b, hloop, hb⟩ := ih (pre ++ a ++ part) rest
        refine ⟨b, ?_, hb.trans (Glob.occursIn_cons hfind).symm⟩
        have hidx : window.find part = some (utf8Len a) := by rw [Str.find, hfind, Option.map_some]
        simp only [hidx]
        obtain ⟨rfl, -⟩ := dropInfix?_eq_some.mp hfind
        simpa only [String.utf8Len_append, List.append_assoc, Nat.add_assoc] using hloop

/-- **`glob_match` decides what the pattern denotes.** -/
theorem globMatch_iff (pattern text : Str) :
    ∃ b, globMatch pattern text = some b ∧ (b = true ↔ Glob.Denotes '*' pattern text) := by
  unfold globMatch
  by_cases hstar : '*' ∈ pattern
  swap
  · refine ⟨pattern == text, if_pos hstar, ?_⟩
    rw [Glob.denotes_of_notMem hstar, beq_iff_eq]
    exact eq_comm
  rw [if_neg (not_not.mpr hstar)]
  obtain ⟨first, ms, last, hparts⟩ := Glob.splitOn_of_mem hstar
  have hden := Glob.denotes_iff hparts text
  have hlast : (first :: (ms ++ [last]))[(first :: (ms ++ [last])).length - 1]? = some last := by
    rw [← List.getLast?_eq_getElem?, ← List.cons_append, List.getLast?_concat]
  have hmid : subslice? (first :: (ms ++ [last])) 1 ((first :: (ms ++ [last])).length - 1) =
      some ms := by
    rw [subslice?, if_pos (by simp)]
    simp
  simp only [hparts, hlast, hmid, List.getElem?_cons_zero, Option.bind_some]
  by_cases hends : first <+: text ∧ last <:+ text
  swap
  · refine ⟨false, if_pos ?_, ?_⟩
    · simpa only [Bool.or_eq_true, Bool.not_eq_true', ← Bool.not_eq_true, List.isPrefixOf_iff_prefix,
        List.isSuffixOf_iff_suffix, not_and_or] using hends
    · rw [hden]
      refine ⟨fun h => absurd h Bool.false_ne_true, ?_⟩
      rintro ⟨w, rfl, -⟩
      exact absurd ⟨⟨w ++ last, by simp⟩, ⟨first ++ w, rfl⟩⟩ hends
  rw [if_neg (by simp [hends])]
  by_cases hlen : utf8Len first + utf8Len last > utf8Len text
  · refine ⟨false, if_pos hlen, ?_⟩
    rw [hden]
    refine ⟨fun h => absurd h Bool.false_ne_true, ?_⟩
    rintro ⟨w, rfl, -⟩
    simp only [String.utf8Len_append] at hlen
    omega
  rw [if_neg hlen]
  -- the two ends do not overlap, so that a window is left between them
  obtain ⟨⟨rest, rfl⟩, hsuf⟩ := hends
  obtain ⟨w, rfl⟩ : last <:+ rest := by
    rcases List.suffix_or_suffix_of_suffix hsuf (List.suffix_append first rest) with h | ⟨g, rfl⟩
    · exact h
    · simp only [String.utf8Len_append] at hlen
      obtain rfl : g = [] := String.utf8Len_eq_zero.mp (by omega)
      exact List.suffix_rfl
  have hstop : utf8Len (first ++ (w ++ last)) - utf8Len last = utf8Len first + utf8Len w := by
    simp only [String.utf8Len_append]
    omega
  obtain ⟨b, hloop, hb⟩ := globLoop_spec last ms first w
  rw [hstop]
  refine ⟨b, hloop, hb.trans (hden.trans ⟨?_, ?_⟩).symm⟩
  · rintro ⟨w', heq, hw'⟩
    obtain rfl : w = w' := by simpa using heq
    exact hw'
  · exact fun hw => ⟨w, by simp, hw⟩

/-! ## Rules by domain -/

structure DomainRule where
  removeAllParams : Bool
  allowedParams : List Str
  deriving DecidableEq

structure LinkRules where
  globalStrip : List Str
  domains : Table Str DomainRule

/-- The forms of a host: as it is, without `www.`, and its last two labels. -/
def domainCandidates (host : Str) : List Str :=
  let labels := host.splitOn '.'
  host :: ((host.dropPrefix? "www.".toList).toList ++
    if labels.length ≥ 2 then [['.'].intercalate (labels.drop (labels.length - 2))] else [])

/-- The inner loop of `match_domain`, over the map in its order. -/
def wildcardLoop (cand : Str) : List (Str × DomainRule) → Option (Option DomainRule)
  | [] => some none
  | (pattern, rule) :: rest =>
    if '*' ∈ pattern then
      match globMatch pattern cand with
      | none => none
      | some true => some (some rule)
      | some false => wildcardLoop cand rest
    else wildcardLoop cand rest

/-- The outer loop of `match_domain`. -/
def domainLoop (domains : Table Str DomainRule) : List Str → Option (Option DomainRule)
  | [] => some none
  | cand :: cands =>
    match domains.get cand with
    | some rule => some (some rule)
    | none => match wildcardLoop cand domains.toPairs with
      | none => none
      | some (some rule) => some (some rule)
      | some none => domainLoop domains cands

def LinkRules.matchDomain (rules : LinkRules) (host : Str) : Option (Option DomainRule) :=
  domainLoop rules.domains (domainCandidates host)

/-- A pattern with a star that matches. -/
def wildcardMatches (pattern cand : Str) : Bool :=
  decide ('*' ∈ pattern) && globMatch pattern cand == some true

/-- The rules whose patterns match a form of the host, in the order of the map. -/
def wildcardRules (domains : Table Str DomainRule) (cand : Str) : List DomainRule :=
  (domains.toPairs.filter fun e => wildcardMatches e.1 cand).map Prod.snd

/-- The rule that a form of the host gets by itself. -/
def ruleFor (domains : Table Str DomainRule) (cand : Str) : Option DomainRule :=
  match domains.get cand with
  | some rule => some rule
  | none => (wildcardRules domains cand).head?

theorem wildcardLoop_eq (cand : Str) (entries : List (Str × DomainRule)) :
    wildcardLoop cand entries =
      some ((entries.filter fun e => wildcardMatches e.1 cand).map Prod.snd).head? := by
  induction entries with
  | nil => rfl
  | cons e rest ih =>
    obtain ⟨pattern, rule⟩ := e
    obtain ⟨b, hb, -⟩ := globMatch_iff pattern cand
    unfold wildcardLoop
    by_cases hstar : '*' ∈ pattern
    · rw [if_pos hstar, hb]
      cases b with
      | true => rw [List.filter_cons_of_pos (by simp [wildcardMatches, hstar, hb])]; rfl
      | false => rw [List.filter_cons_of_neg (by simp [wildcardMatches, hb]), ← ih]
    · rw [if_neg hstar, List.filter_cons_of_neg (by simp [wildcardMatches, hstar]), ih]

theorem domainLoop_eq (domains : Table Str DomainRule) (cands : List Str) :
    domainLoop domains cands = some (cands.findSome? (ruleFor domains)) := by
  induction cands with
  | nil => rfl
  | cons cand cands ih =>
    unfold domainLoop
    rw [List.findSome?_cons, ruleFor, wildcardLoop_eq]
    cases domains.get cand with
    | some rule => rfl
    | none =>
      rw [← wildcardRules]
      cases (wildcardRules domains cand).head? with
      | some rule => rfl
      | none => exact ih

theorem LinkRules.matchDomain_eq (rules : LinkRules) (host : Str) :
    rules.matchDomain host = some ((domainCandidates host).findSome? (ruleFor rules.domains)) :=
  domainLoop_eq _ _

/-! ## The documented priority -/

/-- The rule that some form of the host has exactly, the earlier forms first. -/
def exactRule (domains : Table Str DomainRule) (host : Str) : Option DomainRule :=
  (domainCandidates host).findSome? domains.get

/-- An exact rule goes before a wildcard; without either there is no rule. -/
def FollowsPriority (domains : Table Str DomainRule) (host : Str) (picked : Option DomainRule) :
    Prop :=
  (∀ rule, exactRule domains host = some rule → picked = some rule) ∧
  (exactRule domains host = none →
    (∃ cand ∈ domainCandidates host, ∃ rule ∈ wildcardRules domains cand, picked = some rule) ∨
    (∀ cand ∈ domainCandidates host, wildcardRules domains cand = []) ∧ picked = none)

/-- What is documented of `match_domain`: the priority, whatever the order of the map. -/
def PickedByPriority (rules : LinkRules) (host : Str) : Prop :=
  ∃ picked, FollowsPriority rules.domains host picked ∧
    ∀ domains : Table Str DomainRule, (∀ k, domains.get k = rules.domains.get k) →
      { rules with domains := domains }.matchDomain host = some picked

/-- A form of the host is in the table, or a wildcard matches it. -/
def hasRule (domains : Table Str DomainRule) (cand : Str) : Bool :=
  (domains.get cand).isSome || !(wildcardRules domains cand).isEmpty

/-- Where the first form of the host with any rule has it from wildcards, these are alike, and a
later form has no other rule exactly. -/
def Undisputed (domains : Table Str DomainRule) (host : Str) : Prop :=
  ∀ cand, (domainCandidates host).find? (hasRule domains) = some cand →
    domains.get cand = none → ∀ rule ∈ wildcardRules domains cand,
      (∀ rule' ∈ wildcardRules domains cand, rule' = rule) ∧
      ∀ rule', exactRule domains host = some rule' → rule' = rule

theorem mem_wildcardRules {domains : Table Str DomainRule} {cand : Str} {rule : DomainRule} :
    rule ∈ wildcardRules domains cand ↔
      ∃ pattern, domains.get pattern = some rule ∧ wildcardMatches pattern cand = true := by
  simp only [wildcardRules, List.mem_map, List.mem_filter]
  constructor
  · rintro ⟨⟨pattern, _⟩, ⟨hmem, hmatch⟩, rfl⟩
    exact ⟨pattern, Table.mem_toPairs.mp hmem, hmatch⟩
  · rintro ⟨pattern, hget, hmatch⟩
    exact ⟨(pattern, rule), ⟨Table.mem_toPairs.mpr hget, hmatch⟩, rfl⟩

/-- The rule of a form by itself is an exact one or a wildcard's. -/
theorem ruleFor_eq_some {domains : Table Str DomainRule} {cand : Str} {rule : DomainRule}
    (h : ruleFor domains cand = some rule) :
    domains.get cand = some rule ∨
      domains.get cand = none ∧ rule ∈ wildcardRules domains cand := by
  unfold ruleFor at h
  cases hget : domains.get cand with
  | some exact =>
    rw [hget] at h
    exact .inl h
  | none =>
    rw [hget] at h
    exact .inr ⟨rfl, List.mem_of_head? h⟩

theorem isSome_ruleFor (domains : Table Str DomainRule) (cand : Str) :
    (ruleFor domains cand).isSome = hasRule domains cand := by
  unfold ruleFor hasRule
  cases domains.get cand with
  | some rule => rfl
  | none => cases wildcardRules domains cand <;> rfl

theorem hasRule_eq_false {domains : Table Str DomainRule} {cand : Str} :
    hasRule domains cand = false ↔
      domains.get cand = none ∧ wildcardRules domains cand = [] := by
  simp [hasRule]

/-- Whether a form has a rule does not depend on the order of the map. -/
theorem hasRule_congr {domains domains' : Table Str DomainRule}
    (h : ∀ k, domains'.get k = domains.get k) : hasRule domains' = hasRule domains := by
  funext cand
  rw [Bool.eq_iff_iff, ← not_iff_not, Bool.not_eq_true, Bool.not_eq_true, hasRule_eq_false,
    hasRule_eq_false, h, List.eq_nil_iff_forall_not_mem, List.eq_nil_iff_forall_not_mem]
  simp only [mem_wildcardRules, h]

/-- What is picked is the rule of the first form that has one. -/
theorem findSome?_ruleFor (domains : Table Str DomainRule) (cands : List Str) :
    cands.findSome? (ruleFor domains) = (cands.find? (hasRule domains)).bind (ruleFor domains) := by
  induction cands with
  | nil => rfl
  | cons cand cands ih =>
    rw [List.findSome?_cons, List.find?_cons, ← isSome_ruleFor]
    cases hrule : ruleFor domains cand with
    | none => exact ih
    | some rule => simp [hrule]

/-- A form before the first one with a rule has no exact rule. -/
theorem exactRule_of_find? {domains : Table Str DomainRule} {host cand : Str} {rule : DomainRule}
    (hfirst : (domainCandidates host).find? (hasRule domains) = some cand)
    (hget : domains.get cand = some rule) : exactRule domains host = some rule := by
  obtain ⟨-, before, after, heq, hbefore⟩ := List.find?_eq_some_iff_append.mp hfirst
  unfold exactRule
  rw [heq, List.findSome?_append, List.findSome?_eq_none_iff.mpr, Option.none_or,
    List.findSome?_cons, hget]
  intro c hc
  have hnone : hasRule domains c = false := by simpa using hbefore c hc
  exact (hasRule_eq_false.mp hnone).1

/-- The same table in another order picks among the rules of the same form. -/
theorem LinkRules.matchDomain_same (rules : LinkRules) {domains : Table Str DomainRule}
    (hsame : ∀ k, domains.get k = rules.domains.get k) (host : Str) :
    { rules with domains := domains }.matchDomain host =
      some (((domainCandidates host).find? (hasRule rules.domains)).bind (ruleFor domains)) := by
  rw [LinkRules.matchDomain_eq, findSome?_ruleFor, hasRule_congr hsame]

/-- With a wildcard in front of the map, its rule is what is picked. -/
theorem picked_wildcard {rules : LinkRules} {host cand : Str} {picked : Option DomainRule}
    (hpicked : ∀ domains : Table Str DomainRule, (∀ k, domains.get k = rules.domains.get k) →
      { rules with domains := domains }.matchDomain host = some picked)
    (hfirst : (domainCandidates host).find? (hasRule rules.domains) = some cand)
    (hget : rules.domains.get cand = none) {rule : DomainRule}
    (hrule : rule ∈ wildcardRules rules.domains cand) : picked = some rule := by
  obtain ⟨pattern, hpattern, hmatch⟩ := mem_wildcardRules.mp hrule
  have hsame : ∀ k, (rules.domains.set pattern rule).get k = rules.domains.get k := by
    intro k
    rw [Table.get_set]
    split
    · rename_i hk
      rw [hk, hpattern]
    · rfl
  have hhead : wildcardRules (rules.domains.set pattern rule) cand =
      rule :: wildcardRules (rules.domains.del pattern) cand := by
    rw [wildcardRules, Table.toPairs_set, List.filter_cons_of_pos (by exact hmatch)]
    rfl
  have hrun := hpicked _ hsame
  rw [rules.matchDomain_same hsame, hfirst, Option.some_inj, Option.bind_some] at hrun
  rw [← hrun, ruleFor, hsame, hget, hhead]
  rfl

/-- A host without a rule gets none. -/
theorem followsPriority_none {domains : Table Str DomainRule} {host : Str}
    (hfirst : (domainCandidates host).find? (hasRule domains) = none) :
    FollowsPriority domains host none := by
  have hnone : ∀ c ∈ domainCandidates host, hasRule domains c = false := by simpa using hfirst
  have hexact : exactRule domains host = none :=
    List.findSome?_eq_none_iff.mpr fun c hc => (hasRule_eq_false.mp (hnone c hc)).1
  refine ⟨fun rule h => ?_, fun _ => .inr ⟨fun c hc => (hasRule_eq_false.mp (hnone c hc)).2, rfl⟩⟩
  rw [hexact] at h
  cases h

/-- In an undisputed table the rule of the first form that has one follows the priority. -/
theorem Undisputed.followsPriority {domains : Table Str DomainRule} {host cand : Str}
    {rule : DomainRule} (h : Undisputed domains host)
    (hfirst : (domainCandidates host).find? (hasRule domains) = some cand)
    (hrule : ruleFor domains cand = some rule) : FollowsPriority domains host (some rule) := by
  rcases ruleFor_eq_some hrule with hget | ⟨hget, hmem⟩
  · have hexact := exactRule_of_find? hfirst hget
    refine ⟨fun rule' h => hexact.symm.trans h, fun h => ?_⟩
    rw [hexact] at h
    cases h
  · obtain ⟨-, hlater⟩ := h cand hfirst hget rule hmem
    exact ⟨fun rule' h => congrArg some (hlater rule' h).symm,
      fun _ => .inl ⟨cand, List.mem_of_find?_eq_some hfirst, rule, hmem, rfl⟩⟩

/-- And it does not depend on the order of the map. -/
theorem Undisputed.ruleFor_same {domains domains' : Table Str DomainRule} {host cand : Str}
    {rule : DomainRule} (h : Undisputed domains host)
    (hsame : ∀ k, domains'.get k = domains.get k)
    (hfirst : (domainCandidates host).find? (hasRule domains) = some cand)
    (hrule : ruleFor domains cand = some rule) : ruleFor domains' cand = some rule := by
  have hsome : (ruleFor domains' cand).isSome := by
    rw [isSome_ruleFor, hasRule_congr hsame, List.find?_some hfirst]
  obtain ⟨rule', hrule'⟩ := Option.isSome_iff_exists.mp hsome
  rw [hrule', Option.some_inj]
  rcases ruleFor_eq_some hrule' with hget' | ⟨hget', hmem'⟩
  · rw [hsame] at hget'
    unfold ruleFor at hrule
    rw [hget'] at hrule
    exact Option.some_inj.mp hrule
  · rw [hsame] at hget'
    have hmem : rule' ∈ wildcardRules domains cand := by
      rw [mem_wildcardRules] at hmem' ⊢
      simpa only [hsame] using hmem'
    rcases ruleFor_eq_some hrule with hget | ⟨-, hmem₀⟩
    · rw [hget'] at hget
      cases hget
    · exact (h cand hfirst hget' rule hmem₀).1 rule' hmem

/-- **The documented priority holds exactly for undisputed tables.** -/
theorem pickedByPriority_iff (rules : LinkRules) (host : Str) :
    PickedByPriority rules host ↔ Undisputed rules.domains host := by
  constructor
  · rintro ⟨picked, hpriority, hpicked⟩ cand hfirst hget rule hrule
    have hfront : ∀ rule ∈ wildcardRules rules.domains cand, picked = some rule :=
      fun rule hrule => picked_wildcard hpicked hfirst hget hrule
    have hrulePicked := hfront rule hrule
    constructor
    · intro rule' hrule'
      exact Option.some_inj.mp ((hfront rule' hrule').symm.trans hrulePicked)
    · intro rule' hexact
      exact Option.some_inj.mp ((hpriority.1 rule' hexact).symm.trans hrulePicked)
  · intro hund
    cases hfirst : (domainCandidates host).find? (hasRule rules.domains) with
    | none =>
      refine ⟨none, followsPriority_none hfirst, fun domains hsame => ?_⟩
      rw [rules.matchDomain_same hsame, hfirst]
      rfl
    | some cand =>
      have hruled : (ruleFor rules.domains cand).isSome := by
        rw [isSome_ruleFor, List.find?_some hfirst]
      obtain ⟨rule, hrule⟩ := Option.isSome_iff_exists.mp hruled
      refine ⟨some rule, hund.followsPriority hfirst hrule, fun domains hsame => ?_⟩
      rw [rules.matchDomain_same hsame, hfirst, Option.bind_some,
        hund.ruleFor_same hsame hfirst hrule]

/-! The table of the failing input: a wildcard for the host as it is, and an exact rule for its last
two labels. -/

def sampleKeep (key : String) : DomainRule := ⟨false, [key.toList]⟩

def sampleRedditRules : LinkRules where
  globalStrip := []
  domains := ((∅ : Table Str DomainRule).set "*.reddit.com".toList (sampleKeep "url")).set
    "reddit.com".toList (sampleKeep "id")

/-- The wildcard beats the exact rule of the base domain. -/
theorem not_pickedByPriority : ¬ PickedByPriority sampleRedditRules "old.reddit.com".toList := by
  rintro ⟨picked, hpriority, hpicked⟩
  have hrun : sampleRedditRules.matchDomain "old.reddit.com".toList =
      some (some (sampleKeep "url")) := by decide
  have hexact : exactRule sampleRedditRules.domains "old.reddit.com".toList =
      some (sampleKeep "id") := by decide
  have hwild := (hpicked sampleRedditRules.domains fun _ => rfl).symm.trans hrun
  rw [hpriority.1 _ hexact] at hwild
  exact absurd hwild (by decide)

end Rumble.Server
