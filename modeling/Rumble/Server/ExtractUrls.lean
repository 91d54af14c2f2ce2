import Rumble.Lib.Utf8
import Rumble.Lib.Loop
import Mathlib.Data.List.DropRight

/-!
# Extracting URLs from a message

`extract_urls` of `link_cleaner.rs` searches the text, in lower case, for the next `http` and goes
on behind the URL it finds there, by byte offsets. `Scan` is the scan it stands for, by characters:
`extractUrls_spec` says that the loops end on every text, slice it at characters only and return
what the scan finds.
-/

namespace Rumble.Server

open Rumble.Lib
open String (utf8Len)

/-! ## The loops as written -/

def isUrlChar (c : Char) : Bool :=
  c.isAlphanum || "-._~:/?#[]@!$&'()*+,;=%".toList.contains c

/-- `TRAILING` -/
def isTrailing (c : Char) : Bool := ".,!?;:)]\x7d'\"".toList.contains c

/-- Where the loops are: searching from a byte, or extending the URL that starts at a byte. -/
inductive ExtractPos where
  | search (pos : Nat)
  | extend (start schemeLen stop : Nat)
  deriving DecidableEq

/-- What follows the inner loop: the URL is trimmed and kept if more than the scheme is left. -/
def pushUrl (text : Str) (start schemeLen stop : Nat) (urls : List Str) :
    Option (List Str) ⊕ ExtractPos × List Str :=
  match text.slice? start stop with
  | none => .inl none
  | some piece =>
    let url := piece.rdropWhile isTrailing
    .inr (.search stop, if utf8Len url > schemeLen then urls ++ [url] else urls)

/-- The bodies of the two loops, none where they panic. -/
def extractBody (text : Str) (s : ExtractPos × List Str) :
    Option (List Str) ⊕ ExtractPos × List Str :=
  match s with
  | (.search pos, urls) =>
    match text.toAsciiLowercase.dropBytes? pos with
    | none => .inl none
    | some rest => match rest.find "http".toList with
      | none => .inl (some urls)
      | some rel => match text.toAsciiLowercase.dropBytes? (pos + rel) with
        | none => .inl none
        | some tail =>
          if "https://".toList.isPrefixOf tail then
            .inr (.extend (pos + rel) 8 (pos + rel + 8), urls)
          else if "http://".toList.isPrefixOf tail then
            .inr (.extend (pos + rel) 7 (pos + rel + 7), urls)
          else .inr (.search (pos + rel + 4), urls)
  | (.extend start schemeLen stop, urls) =>
    if stop < utf8Len text then
      match text.dropBytes? stop with
      | some (c :: _) =>
        if isUrlChar c then .inr (.extend start schemeLen (stop + c.utf8Size), urls)
        else pushUrl text start schemeLen stop urls
      | _ => .inl none
    else pushUrl text start schemeLen stop urls

/-- The loop of `extract_urls` on this text ends with this result. -/
def ExtractUrls (text : Str) (result : Option (List Str)) : Prop :=
  Loops (extractBody text) (.search 0, []) result

/-! ## The scan -/

/-- `http://` or `https://` in any case. -/
def IsScheme (s : Str) : Prop :=
  s.toAsciiLowercase = "http://".toList ∨ s.toAsciiLowercase = "https://".toList

def StartsScheme (s : Str) : Prop := ∃ scheme rest, s = scheme ++ rest ∧ IsScheme scheme

/-- The URL of a candidate without trailing punctuation, where more than the scheme is left. -/
def trimmed (scheme run : Str) : List Str :=
  if run.rdropWhile isTrailing = [] then [] else [scheme ++ run.rdropWhile isTrailing]

/-- From left to right: a character where no candidate starts is passed over, and a candidate is a
scheme with all URL characters that follow it. -/
inductive Scan : Str → List Str → Prop
  | nil : Scan [] []
  | skip {c : Char} {s : Str} {urls : List Str} : ¬ StartsScheme (c :: s) → Scan s urls →
      Scan (c :: s) urls
  | candidate {scheme run rest : Str} {urls : List Str} : IsScheme scheme →
      (∀ c ∈ run, isUrlChar c = true) → (∀ c ∈ rest.head?, isUrlChar c = false) → Scan rest urls →
      Scan (scheme ++ (run ++ rest)) (trimmed scheme run ++ urls)

theorem startsScheme_http {s : Str} (h : StartsScheme s) :
    "http".toList <+: s.toAsciiLowercase := by
  obtain ⟨scheme, rest, rfl, hscheme⟩ := h
  rw [Str.toAsciiLowercase_append]
  rcases hscheme with hs | hs
  all_goals
    rw [hs]
    exact List.IsPrefix.trans (by decide) (List.prefix_append _ _)

theorem not_startsScheme {c : Char} (hc : c.toLower ≠ 'h') (s : Str) : ¬ StartsScheme (c :: s) := by
  intro h
  obtain ⟨rest, hrest⟩ := startsScheme_http h
  exact hc (List.cons.inj hrest).1.symm

/-- Passing over several characters. -/
theorem Scan.skip_append {a s : Str} {urls : List Str}
    (ha : ∀ a₁ a₂, a = a₁ ++ a₂ → a₂ ≠ [] → ¬ StartsScheme (a₂ ++ s)) (h : Scan s urls) :
    Scan (a ++ s) urls := by
  induction a with
  | nil => exact h
  | cons c a ih =>
    refine .skip (ha [] (c :: a) rfl (List.cons_ne_nil c a)) (ih fun a₁ a₂ heq hne => ?_)
    exact ha (c :: a₁) a₂ (by rw [heq]; rfl) hne

/-- A text without `http` has no candidate. -/
theorem scan_of_not_infix {s : Str} (h : ¬ "http".toList <:+: s.toAsciiLowercase) : Scan s [] := by
  have hskip : Scan (s ++ []) [] := by
    refine Scan.skip_append ?_ .nil
    rintro a₁ a₂ rfl - hstarts
    rw [List.append_nil] at hstarts
    obtain ⟨rest, hrest⟩ := startsScheme_http hstarts
    exact h ⟨a₁.toAsciiLowercase, rest, by
      rw [Str.toAsciiLowercase_append, ← hrest, List.append_assoc]⟩
  rwa [List.append_nil] at hskip

/-! ## The scan is a function -/

theorem IsScheme.utf8Len {scheme : Str} (h : IsScheme scheme) :
    String.utf8Len scheme = 7 ∨ String.utf8Len scheme = 8 := by
  rw [← Str.utf8Len_toAsciiLowercase]
  rcases h with h | h
  · exact .inl (by rw [h]; decide)
  · exact .inr (by rw [h]; decide)

theorem IsScheme.length_pos {scheme : Str} (h : IsScheme scheme) : 0 < scheme.length := by
  refine List.length_pos_iff.mpr ?_
  rintro rfl
  exact absurd h (by unfold IsScheme; decide)

/-- Of two schemes at the start of a text one is not shorter. -/
theorem isScheme_unique {a b s t : Str} (ha : IsScheme a) (hb : IsScheme b)
    (heq : a ++ s = b ++ t) : a = b ∧ s = t := by
  have hlen : ∀ {w : Str}, IsScheme w → w.toAsciiLowercase = "http://".toList ∧ w.length = 7 ∨
      w.toAsciiLowercase = "https://".toList ∧ w.length = 8 := by
    intro w hw
    have hmap : w.length = w.toAsciiLowercase.length := (List.length_map _).symm
    rcases hw with hw | hw
    · exact .inl ⟨hw, by rw [hmap, hw]; decide⟩
    · exact .inr ⟨hw, by rw [hmap, hw]; decide⟩
  have hfifth := congrArg (fun l : Str => (l.toAsciiLowercase.drop 4).head?) heq
  simp only [Str.toAsciiLowercase_append] at hfifth
  rcases hlen ha with ⟨hla, hna⟩ | ⟨hla, hna⟩ <;> rcases hlen hb with ⟨hlb, hnb⟩ | ⟨hlb, hnb⟩
  · exact List.append_inj heq (hna.trans hnb.symm)
  · rw [hla, hlb] at hfifth
    exact absurd hfifth (by simp)
  · rw [hla, hlb] at hfifth
    exact absurd hfifth (by simp)
  · exact List.append_inj heq (hna.trans hnb.symm)

/-- A maximal run is determined. -/
theorem run_unique {run rest run' rest' : Str} (hrun : ∀ c ∈ run, isUrlChar c = true)
    (hrest : ∀ c ∈ rest.head?, isUrlChar c = false) (hrun' : ∀ c ∈ run', isUrlChar c = true)
    (hrest' : ∀ c ∈ rest'.head?, isUrlChar c = false) (heq : run ++ rest = run' ++ rest') :
    run = run' ∧ rest = rest' := by
  have htake : ∀ {a b : Str}, (∀ c ∈ a, isUrlChar c = true) →
      (∀ c ∈ b.head?, isUrlChar c = false) → (a ++ b).takeWhile isUrlChar = a := by
    intro a b ha hb
    rw [List.takeWhile_append_of_pos ha]
    cases b with
    | nil => simp
    | cons c b => rw [List.takeWhile_cons_of_neg (by simp [hb c rfl]), List.append_nil]
  obtain rfl : run = run' := by rw [← htake hrun hrest, heq, htake hrun' hrest']
  exact ⟨rfl, List.append_cancel_left heq⟩

theorem startsScheme_append {scheme : Str} (h : IsScheme scheme) (s : Str) :
    StartsScheme (scheme ++ s) := ⟨scheme, s, rfl, h⟩

theorem not_startsScheme_nil : ¬ StartsScheme [] := by
  intro h
  exact absurd (startsScheme_http h) (by decide)

/-- Where no candidate starts, one character is passed over. -/
theorem Scan.of_not_starts {c : Char} {s : Str} {urls : List Str} (h : Scan (c :: s) urls)
    (hnot : ¬ StartsScheme (c :: s)) : Scan s urls := by
  generalize hs : c :: s = t at h
  cases h with
  | nil => cases hs
  | skip _ h =>
    obtain ⟨rfl, rfl⟩ := List.cons.inj hs
    exact h
  | candidate hscheme _ _ _ => exact absurd (startsScheme_append hscheme _) (hs ▸ hnot)

/-- Where a candidate starts, it is the only one that does. -/
theorem Scan.of_candidate {scheme run rest : Str} {urls : List Str}
    (h : Scan (scheme ++ (run ++ rest)) urls) (hscheme : IsScheme scheme)
    (hrun : ∀ c ∈ run, isUrlChar c = true) (hrest : ∀ c ∈ rest.head?, isUrlChar c = false) :
    ∃ more, Scan rest more ∧ urls = trimmed scheme run ++ more := by
  generalize hs : scheme ++ (run ++ rest) = t at h
  cases h with
  | nil => exact absurd (hs ▸ startsScheme_append hscheme _) not_startsScheme_nil
  | skip hnot _ => exact absurd (hs ▸ startsScheme_append hscheme _) hnot
  | candidate hscheme' hrun' hrest' h =>
    obtain ⟨rfl, heq⟩ := isScheme_unique hscheme hscheme' hs
    obtain ⟨rfl, rfl⟩ := run_unique hrun hrest hrun' hrest' heq
    exact ⟨_, h, rfl⟩

theorem Scan.unique {s : Str} {urls urls' : List Str} (h : Scan s urls) (h' : Scan s urls') :
    urls' = urls := by
  induction h generalizing urls' with
  | nil =>
    generalize hs : ([] : Str) = t at h'
    cases h' with
    | nil => rfl
    | skip => cases hs
    | candidate hscheme => exact absurd (hs ▸ startsScheme_append hscheme _) not_startsScheme_nil
  | skip hnot _ ih => exact ih (h'.of_not_starts hnot)
  | candidate hscheme hrun hrest _ ih =>
    obtain ⟨more, hmore, rfl⟩ := h'.of_candidate hscheme hrun hrest
    rw [ih hmore]

/-! ## The loops do the scan -/

theorem rdropWhile_append {α : Type} (p : α → Bool) (l r : List α) :
    (l ++ r).rdropWhile p =
      if r.rdropWhile p = [] then l.rdropWhile p else l ++ r.rdropWhile p := by
  simp only [List.rdropWhile, List.reverse_append, List.dropWhile_append, List.isEmpty_iff,
    List.reverse_eq_nil_iff]
  split <;> simp

theorem toLower_of_isTrailing {c : Char} (h : isTrailing c = true) : c.toLower ≠ '/' := by
  have hall : (".,!?;:)]\x7d'\"".toList.all fun c => c.toLower != '/') = true := by decide
  exact bne_iff_ne.mp (List.all_eq_true.mp hall c (List.contains_iff_mem.mp h))

/-- A scheme ends with a slash, so that it is not trimmed. -/
theorem rdropWhile_scheme {scheme : Str} (h : IsScheme scheme) :
    scheme.rdropWhile isTrailing = scheme := by
  refine List.rdropWhile_eq_self_iff.mpr fun hne htrailing => ?_
  have hlast : (scheme.getLast hne).toLower = '/' := by
    have hmap : (scheme.map Char.toLower).getLast? = some '/' := by
      rcases h with h | h
      all_goals
        rw [Str.toAsciiLowercase] at h
        rw [h]
        decide
    rw [List.getLast?_map, List.getLast?_eq_some_getLast hne] at hmap
    exact Option.some_inj.mp hmap
  exact toLower_of_isTrailing htrailing hlast

section Loops

variable {text pre scheme : Str} {urls : List Str}

theorem pushUrl_eq (hscheme : IsScheme scheme) {run rest : Str}
    (htext : text = pre ++ (scheme ++ run ++ rest)) :
    pushUrl text (utf8Len pre) (utf8Len scheme) (utf8Len pre + utf8Len (scheme ++ run)) urls =
      .inr (.search (utf8Len pre + utf8Len (scheme ++ run)), urls ++ trimmed scheme run) := by
  unfold pushUrl
  rw [htext, Str.slice?_append]
  simp only [rdropWhile_append, rdropWhile_scheme hscheme, trimmed]
  by_cases hrun : run.rdropWhile isTrailing = []
  · simp [hrun]
  · have hpos : 0 < utf8Len (run.rdropWhile isTrailing) :=
      Nat.pos_of_ne_zero fun h => hrun (String.utf8Len_eq_zero.mp h)
    rw [if_neg hrun, if_neg hrun, if_pos (by rw [String.utf8Len_append]; omega)]

/-- The inner loop extends the URL over all URL characters that follow. -/
theorem loops_extend (hscheme : IsScheme scheme) (rest : Str) : ∀ run : Str,
    text = pre ++ (scheme ++ run ++ rest) →
    ∃ run' rest', rest = run' ++ rest' ∧ (∀ c ∈ run', isUrlChar c = true) ∧
      (∀ c ∈ rest'.head?, isUrlChar c = false) ∧ ∀ r,
      Loops (extractBody text) (.search (utf8Len (pre ++ (scheme ++ (run ++ run')))),
        urls ++ trimmed scheme (run ++ run')) r →
      Loops (extractBody text) (.extend (utf8Len pre) (utf8Len scheme)
        (utf8Len pre + utf8Len (scheme ++ run)), urls) r := by
  induction rest with
  | nil =>
    intro run htext
    refine ⟨[], [], rfl, by simp, by simp, fun r hr => .next ?_ hr⟩
    have hend : ¬ utf8Len pre + utf8Len (scheme ++ run) < utf8Len text := by
      rw [htext]
      simp
    rw [extractBody, if_neg hend, pushUrl_eq hscheme htext]
    simp
  | cons c rest ih =>
    intro run htext
    have hpos := c.utf8Size_pos
    have hstop : utf8Len pre + utf8Len (scheme ++ run) < utf8Len text := by
      rw [htext]
      simp only [String.utf8Len_append, String.utf8Len_cons]
      omega
    have hdrop : text.dropBytes? (utf8Len pre + utf8Len (scheme ++ run)) = some (c :: rest) := by
      rw [htext, ← List.append_assoc, ← String.utf8Len_append, Str.dropBytes?_append]
    cases hc : isUrlChar c with
    | true =>
      obtain ⟨run', rest', rfl, hrun', hrest', hloops⟩ := ih (run ++ [c]) (by rw [htext]; simp)
      refine ⟨c :: run', rest', rfl, List.forall_mem_cons.mpr ⟨hc, hrun'⟩, hrest',
        fun r hr => .next ?_ (hloops r ?_)⟩
      · simp only [extractBody, if_pos hstop, hdrop, hc, if_true]
        simp only [String.utf8Len_append, String.utf8Len_cons, String.utf8Len_nil, Nat.zero_add,
          Nat.add_assoc]
      · simpa using hr
    | false =>
      refine ⟨[], c :: rest, rfl, by simp, by simpa using hc, fun r hr => .next ?_ hr⟩
      simp only [extractBody, if_pos hstop, hdrop, hc, Bool.false_eq_true, if_false]
      rw [pushUrl_eq hscheme htext]
      simp

/-- Before the first `http` no candidate starts. -/
theorem not_startsScheme_before {a s a' b' : Str}
    (hfind : (a ++ s).toAsciiLowercase.dropInfix? "http".toList = some (a', b'))
    (hlen : a.length ≤ a'.length) :
    ∀ a₁ a₂, a = a₁ ++ a₂ → a₂ ≠ [] → ¬ StartsScheme (a₂ ++ s) := by
  rintro a₁ a₂ rfl hne hstarts
  obtain ⟨rest, hrest⟩ := startsScheme_http hstarts
  have hearlier : a'.length ≤ a₁.toAsciiLowercase.length :=
    (dropInfix?_eq_some.mp hfind).2 _ rest (by
      rw [List.append_assoc, Str.toAsciiLowercase_append, ← hrest, List.append_assoc])
  have hpos := List.length_pos_iff.mpr hne
  rw [Str.toAsciiLowercase, List.length_map] at hearlier
  rw [List.length_append] at hlen
  omega

/-- No candidate starts inside an `http`, nor at one that no `://` follows. -/
theorem scan_http {h b : Str} {urls : List Str} (hhttp : h.toAsciiLowercase = "http".toList)
    (hnot : ¬ StartsScheme (h ++ b)) (hscan : Scan b urls) : Scan (h ++ b) urls := by
  obtain ⟨c₀, h, rfl, h0, hhttp⟩ := List.map_eq_cons_iff.mp hhttp
  obtain ⟨c₁, h, rfl, h1, hhttp⟩ := List.map_eq_cons_iff.mp hhttp
  obtain ⟨c₂, h, rfl, h2, hhttp⟩ := List.map_eq_cons_iff.mp hhttp
  obtain ⟨c₃, h, rfl, h3, hhttp⟩ := List.map_eq_cons_iff.mp hhttp
  obtain rfl := List.map_eq_nil_iff.mp hhttp
  refine .skip hnot (.skip ?_ (.skip ?_ (.skip ?_ hscan)))
  · exact not_startsScheme (by rw [h1]; decide) _
  · exact not_startsScheme (by rw [h2]; decide) _
  · exact not_startsScheme (by rw [h3]; decide) _

/-- What comes after a scheme: the URL it starts, and the rest of the scan. -/
theorem loops_candidate (hscheme : IsScheme scheme) {rest : Str}
    (htext : text = pre ++ (scheme ++ rest))
    (ih : ∀ (s pre : Str) (urls : List Str), s.length ≤ rest.length → text = pre ++ s →
      ∃ more, Scan s more ∧
        Loops (extractBody text) (.search (utf8Len pre), urls) (some (urls ++ more))) :
    ∃ more, Scan (scheme ++ rest) more ∧ Loops (extractBody text)
      (.extend (utf8Len pre) (utf8Len scheme) (utf8Len pre + utf8Len scheme), urls)
      (some (urls ++ more)) := by
  obtain ⟨run, rest, rfl, hrun, hrest, hloops⟩ :=
    @loops_extend text pre scheme urls hscheme rest [] (by simpa using htext)
  simp only [List.nil_append, List.append_nil] at hloops
  obtain ⟨more, hscan, hrun'⟩ := ih rest (pre ++ (scheme ++ run)) (urls ++ trimmed scheme run)
    (by simp) (by rw [htext]; simp)
  refine ⟨trimmed scheme run ++ more, .candidate hscheme hrun hrest hscan, hloops _ ?_⟩
  rwa [List.append_assoc] at hrun'

theorem dropBytes?_lower {s : Str} (htext : text = pre ++ s) :
    text.toAsciiLowercase.dropBytes? (utf8Len pre) = some s.toAsciiLowercase := by
  rw [htext, Str.toAsciiLowercase_append, ← Str.utf8Len_toAsciiLowercase pre,
    Str.dropBytes?_append]

/-- The candidate that starts at one of the two words, when nothing before it starts one. -/
theorem loops_word {a s word : Str} (htext : text = (pre ++ a) ++ s)
    (hbefore : ∀ a₁ a₂, a = a₁ ++ a₂ → a₂ ≠ [] → ¬ StartsScheme (a₂ ++ s))
    (hword : word = "http://".toList ∨ word = "https://".toList)
    (hstarts : word.isPrefixOf s.toAsciiLowercase = true)
    (ih : ∀ (s' pre : Str) (urls : List Str), s'.length < s.length → text = pre ++ s' →
      ∃ more, Scan s' more ∧
        Loops (extractBody text) (.search (utf8Len pre), urls) (some (urls ++ more))) :
    ∃ more, Scan (a ++ s) more ∧ Loops (extractBody text)
      (.extend (utf8Len pre + utf8Len a) (utf8Len word)
        (utf8Len pre + utf8Len a + utf8Len word), urls) (some (urls ++ more)) := by
  obtain ⟨t, ht⟩ := List.isPrefixOf_iff_prefix.mp hstarts
  obtain ⟨scheme, rest, rfl, rfl, -⟩ := List.map_eq_append_iff.mp ht.symm
  have hscheme : IsScheme scheme := hword
  obtain ⟨more, hscan, hloops⟩ := @loops_candidate text (pre ++ a) scheme urls hscheme rest htext
    fun s' pre' urls' hlen htext' => by
      have hpos := hscheme.length_pos
      refine ih s' pre' urls' ?_ htext'
      rw [List.length_append]
      omega
  refine ⟨more, hscan.skip_append hbefore, ?_⟩
  rw [← String.utf8Len_append]
  change Loops (extractBody text) (.extend (utf8Len (pre ++ a))
    (utf8Len (Str.toAsciiLowercase scheme))
    (utf8Len (pre ++ a) + utf8Len (Str.toAsciiLowercase scheme)), urls) _
  rw [Str.utf8Len_toAsciiLowercase]
  exact hloops

theorem not_startsScheme_of_words {s : Str}
    (hhttps : ¬ "https://".toList.isPrefixOf s.toAsciiLowercase = true)
    (hplain : ¬ "http://".toList.isPrefixOf s.toAsciiLowercase = true) : ¬ StartsScheme s := by
  rintro ⟨scheme, rest, rfl, hscheme⟩
  rw [Str.toAsciiLowercase_append] at hhttps hplain
  rcases hscheme with hs | hs
  · exact hplain (List.isPrefixOf_iff_prefix.mpr (hs ▸ List.prefix_append _ _))
  · exact hhttps (List.isPrefixOf_iff_prefix.mpr (hs ▸ List.prefix_append _ _))

/-- From where the search stands, the loops return what the scan of the rest finds. -/
theorem loops_search (s pre : Str) (urls : List Str) (htext : text = pre ++ s) :
    ∃ more, Scan s more ∧
      Loops (extractBody text) (.search (utf8Len pre), urls) (some (urls ++ more)) := by
  induction hn : s.length using Nat.strong_induction_on generalizing s pre urls with
  | h n ih =>
    cases hfind : s.toAsciiLowercase.dropInfix? "http".toList with
    | none =>
      refine ⟨[], scan_of_not_infix (dropInfix?_eq_none.mp hfind), .stop ?_⟩
      simp only [extractBody, dropBytes?_lower htext, Str.find, hfind, Option.map_none,
        List.append_nil]
    | some e =>
      obtain ⟨a', b'⟩ := e
      have heq := (dropInfix?_eq_some.mp hfind).1
      obtain ⟨ah, b, rfl, hah, rfl⟩ := List.map_eq_append_iff.mp heq
      obtain ⟨a, h, rfl, rfl, hh⟩ := List.map_eq_append_iff.mp hah
      rw [List.append_assoc] at hfind htext ⊢
      have hbefore := not_startsScheme_before hfind (List.length_map _).ge
      have hhb : text = (pre ++ a) ++ (h ++ b) := by rw [htext, List.append_assoc]
      have hrel : Str.find (Str.toAsciiLowercase (a ++ (h ++ b))) "http".toList =
          some (utf8Len a) := by
        rw [Str.find, hfind, Option.map_some, ← Str.utf8Len_toAsciiLowercase a]
        rfl
      have htail := dropBytes?_lower hhb
      rw [String.utf8Len_append] at htail
      have hfour : h.length = 4 := (List.length_map Char.toLower).symm.trans (congrArg List.length hh)
      have hlength : a.length + (h ++ b).length = n := by
        rw [← hn, List.append_assoc]
        exact List.length_append.symm
      have hshorter : ∀ (s' pre : Str) (urls : List Str), s'.length < (h ++ b).length →
          text = pre ++ s' → ∃ more, Scan s' more ∧
            Loops (extractBody text) (.search (utf8Len pre), urls) (some (urls ++ more)) :=
        fun s' pre urls hlen htext' => ih s'.length (by omega) s' pre urls htext' rfl
      by_cases hhttps : "https://".toList.isPrefixOf (Str.toAsciiLowercase (h ++ b)) = true
      · obtain ⟨more, hscan, hloops⟩ := loops_word hhb hbefore (.inr rfl) hhttps hshorter
        refine ⟨more, hscan, .next ?_ hloops⟩
        simp only [extractBody, dropBytes?_lower htext, hrel, htail, hhttps, if_true]
        rfl
      by_cases hplain : "http://".toList.isPrefixOf (Str.toAsciiLowercase (h ++ b)) = true
      · obtain ⟨more, hscan, hloops⟩ := loops_word hhb hbefore (.inl rfl) hplain hshorter
        refine ⟨more, hscan, .next ?_ hloops⟩
        simp only [extractBody, dropBytes?_lower htext, hrel, htail, hhttps, hplain, if_true]
        rfl
      · have hbytes : utf8Len h = 4 := by
          rw [← Str.utf8Len_toAsciiLowercase, Str.toAsciiLowercase, hh]
          decide
        obtain ⟨more, hscan, hloops⟩ := hshorter b (pre ++ a ++ h) urls
          (by rw [List.length_append]; omega) (by rw [hhb]; simp)
        refine ⟨more, (scan_http hh (not_startsScheme_of_words hhttps hplain) hscan).skip_append
          hbefore, .next ?_ hloops⟩
        simp only [extractBody, dropBytes?_lower htext, hrel, htail, if_neg hhttps, if_neg hplain,
          String.utf8Len_append, hbytes]

end Loops

/-- **The loops end on every text, without a panic, and return what the scan finds.** -/
theorem extractUrls_spec (text : Str) :
    ∃ urls, (∀ result, ExtractUrls text result ↔ result = some urls) ∧
      ∀ found, Scan text found ↔ found = urls := by
  obtain ⟨urls, hscan, hloops⟩ := loops_search text [] [] rfl
  refine ⟨urls, fun result => ⟨fun h => h.unique hloops, ?_⟩, fun found => ⟨fun h => ?_, ?_⟩⟩
  · rintro rfl
    exact hloops
  · exact hscan.unique h
  · rintro rfl
    exact hscan

end Rumble.Server
