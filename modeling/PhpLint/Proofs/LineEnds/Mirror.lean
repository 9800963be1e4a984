import Mathlib.Order.Monotone.Basic
import PhpLint.Proofs.Lexing.Layout
import PhpLint.Proofs.LineEnds.Scan

/-!
# Token streams side by side

The stream of a source and that of its form with returns **mirror** each other: a map of indices leads
from each token of the one to its image in the other, which has its kind, its line and, but for white
space in doc comments, its column.  An index that is no image holds the line end that a closing tag
leaves; it lies between the images of that tag and of the open tag, or the end, behind it.

Of text outside of code nothing is said but its kind.  `mirrors_ofSource` is the one place that looks
into the scan; what the streams answer follows from the mirror alone.
-/

namespace PhpLint

open Text (withReturns)

namespace Scan

/-! ## Indices of lexemes -/

/-- The map that takes the first index to the first, and the next ones `n` places further on than
`φ` takes them. -/
def behind (n : Nat) (φ : Nat → Nat) : Nat → Nat
  | 0 => 0
  | i + 1 => φ i + n

/-- The lexemes `ls` behind `u` have images among the lexemes `ls'` behind `u'`. -/
structure Images (u u' : Text) (ls ls' : List Lexeme) (φ : Nat → Nat) : Prop where
  zero : φ 0 = 0
  length : φ ls.length = ls'.length
  succ : ∀ i, φ (i + 1) = φ i + 1 ∨
    φ (i + 1) = φ i + 2 ∧ ls[i]?.map Lexeme.kind = some .closeTag ∧
      ls'[φ i + 1]?.map Lexeme.kind = some .inlineHtml ∧ ∀ next ∈ ls[i + 1]?, next.kind = .openTag
  like : ∀ i l, ls[i]? = some l → ∃ l', ls'[φ i]? = some l' ∧
    Like (u ++ Lexeme.spell (ls.take i)) (u' ++ Lexeme.spell (ls'.take (φ i))) l l'
  stop : u' ++ Lexeme.spell ls' = withReturns (u ++ Lexeme.spell ls)

/-- Images are in the order of their indices. -/
theorem Images.strictMono {u u' : Text} {ls ls' : List Lexeme} {φ : Nat → Nat}
    (h : Images u u' ls ls' φ) : StrictMono φ := by
  refine strictMono_nat_of_lt_succ fun i => ?_
  rcases h.succ i with hone | ⟨htwo, -⟩
  · omega
  · omega

/-- Up to a lexeme that holds no line feed, the lexemes spell the two forms of one text. -/
theorem Images.start_eq {u u' : Text} {ls ls' : List Lexeme} {φ : Nat → Nat}
    (h : Images u u' ls ls' φ) {i : Nat} {l : Lexeme} (hl : ls[i]? = some l)
    (hplain : l.kind.mayBreak = false) :
    u' ++ Lexeme.spell (ls'.take (φ i)) = withReturns (u ++ Lexeme.spell (ls.take i)) ∧
      u' ++ Lexeme.spell (ls'.take (φ i + 1)) = withReturns (u ++ Lexeme.spell (ls.take (i + 1))) := by
  obtain ⟨l', hl', hlike⟩ := h.like i l hl
  have hstart : u' ++ Lexeme.spell (ls'.take (φ i)) = withReturns (u ++ Lexeme.spell (ls.take i)) := by
    have hinside : l.kind ≠ .inlineHtml := fun hkind => by simp [hkind, Kind.mayBreak] at hplain
    refine (hlike.start hinside).resolve_right fun ⟨hkind, _⟩ => ?_
    simp [hkind, Kind.mayBreak] at hplain
  have hfree := hlike.suits.plain hplain
  have htext := hlike.plain hplain
  refine ⟨hstart, ?_⟩
  rw [List.take_add_one, List.take_add_one, hl, hl', Lexeme.spell_append, Lexeme.spell_append,
    ← List.append_assoc, ← List.append_assoc, hstart, Text.withReturns_append _ (Lexeme.spell _)]
  simp [htext, Text.withReturns_of_not_mem hfree]

/-- One more lexeme in front of each, and behind the second one what else stands there. -/
theorem Images.cons {u u' : Text} {l l' : Lexeme} {more ls ls' : List Lexeme} {φ : Nat → Nat}
    (hlike : Like u u' l l')
    (hmore : more = [] ∨ ∃ lineEnd, more = [lineEnd] ∧ l.kind = .closeTag ∧
      lineEnd.kind = .inlineHtml ∧ ∀ next ∈ ls.head?, next.kind = .openTag)
    (h : Images (u ++ l.text) (u' ++ (l'.text ++ Lexeme.spell more)) ls ls' φ) :
    Images u u' (l :: ls) (l' :: (more ++ ls')) (behind (more.length + 1) φ) := by
  have hshift (j : Nat) : (l' :: (more ++ ls'))[j + (more.length + 1)]? = ls'[j]? := by
    rw [← Nat.add_assoc, List.getElem?_cons_succ, List.getElem?_append_right (by omega),
      Nat.add_sub_cancel]
  constructor
  case zero => rfl
  case length =>
    simp only [List.length_cons, behind, h.length, List.length_append]
    omega
  case succ =>
    intro i
    cases i with
    | zero =>
      rcases hmore with rfl | ⟨lineEnd, rfl, hclose, hhtml, hnext⟩
      · exact .inl (by simp [behind, h.zero])
      · refine .inr ⟨by simp [behind, h.zero], by simp [hclose], by simp [behind, hhtml], ?_⟩
        rwa [List.head?_eq_getElem?] at hnext
    | succ i =>
      rcases h.succ i with hone | ⟨htwo, hclose, hhtml, hnext⟩
      · refine .inl ?_
        simp only [behind, hone]
        omega
      · refine .inr ⟨?_, hclose, ?_, hnext⟩
        · simp only [behind, htwo]
          omega
        · rw [behind, Nat.add_right_comm, hshift]
          exact hhtml
  case like =>
    intro i m hm
    cases i with
    | zero =>
      obtain rfl := Option.some.inj hm
      exact ⟨l', rfl, by simpa [behind] using hlike⟩
    | succ i =>
      obtain ⟨m', hm', hlike'⟩ := h.like i m hm
      refine ⟨m', by rw [behind, hshift, hm'], ?_⟩
      have htake : (l' :: (more ++ ls')).take (φ i + (more.length + 1)) =
          l' :: (more ++ ls'.take (φ i)) := by
        rw [← Nat.add_assoc, List.take_succ_cons, Nat.add_comm, List.take_length_add_append]
      rw [behind, htake]
      simpa [List.append_assoc] using hlike'
  case stop => simpa [List.append_assoc] using h.stop

/-- Lexemes that stand side by side have images. -/
theorem exists_images {u u' : Text} {ls ls' : List Lexeme} (h : Along u u' ls ls') :
    ∃ φ, Images u u' ls ls' φ := by
  induction h with
  | nil u =>
    refine ⟨id, rfl, rfl, fun i => .inl rfl, fun i l hl => ?_, by simp⟩
    simp at hl
  | @both u u' l l' ls ls' hlike hrest ih =>
    obtain ⟨φ, hφ⟩ := ih
    exact ⟨_, Images.cons hlike (.inl (rfl : ([] : List Lexeme) = [])) (by simpa using hφ)⟩
  | @left u u' l l' lineEnd ls ls' hlike hclose hhtml hnext hrest ih =>
    obtain ⟨φ, hφ⟩ := ih
    exact ⟨_, Images.cons hlike (.inr ⟨lineEnd, rfl, hclose, hhtml, hnext⟩) (by simpa using hφ)⟩

end Scan

namespace Token

/-- Tokens at one place of the two forms. -/
structure Alike (t t' : Token) : Prop where
  kind : t'.kind = t.kind
  line : t.kind ≠ .inlineHtml → t'.line = t.line
  column : t.kind ≠ .inlineHtml → t.kind ≠ .docSpace → t'.column = t.column
  content : t.kind ≠ .inlineHtml → Text.SameWord t.content t'.content
  plain : t.kind.mayBreak = false → t'.content = t.content
  suits : Scan.Suits t.kind t.content

/-- The mark in front of a source is not touched. -/
theorem withoutMark_withReturns (source : Text) :
    withoutMark (withReturns source) = withReturns (withoutMark source) := by
  cases source with
  | nil => rfl
  | cons c rest =>
    by_cases hc : c = '\n'
    · subst hc
      rfl
    · have hmark (t : Text) : withoutMark (c :: t) = if c = byteOrderMark then t else c :: t := by
        simp [withoutMark]
      rw [Text.withReturns_cons hc, hmark, hmark]
      split
      · rfl
      · rw [Text.withReturns_cons hc]

end Token

namespace TokenStream

open Token (withoutMark origin)

/-- The tokens of `s` have images among those of `s'`; what else `s'` holds are line ends that closing
tags leave. -/
structure Mirrors (s s' : TokenStream) (φ : Nat → Nat) : Prop where
  zero : φ 0 = 0
  size : φ s.size = s'.size
  succ : ∀ i, φ (i + 1) = φ i + 1 ∨
    φ (i + 1) = φ i + 2 ∧ s.kind? i = some .closeTag ∧ s'.kind? (φ i + 1) = some .inlineHtml ∧
      ∀ k ∈ s.kind? (i + 1), k = .openTag
  token : ∀ i t, s.token? i = some t → ∃ t', s'.token? (φ i) = some t' ∧ Token.Alike t t'
  before : ∀ i, s.kind? (i + 1) = some .inlineHtml → s.kind? i = some .closeTag
  behind : ∀ i, s.kind? i = some .inlineHtml → ∀ k ∈ s.kind? (i + 1), k = .openTag
  text : ∀ a b, a ≤ b → s.has a (!·.mayBreak) = true → s.has b (!·.mayBreak) = true →
    s'.textBetween (φ a) (φ b) = withReturns (s.textBetween a b)

/-- The stream of a source is its scan, with every lexeme placed, unless the scan has a fault. -/
theorem ofSource_eq (source : Text) :
    ofSource source =
      match (Scan.ofSource (withoutMark source)).fault with
      | none => .ok (ofList (Token.place (origin source)
          (Scan.ofSource (withoutMark source)).lexemes))
      | some fault =>
        let p := (origin source).past (Lexeme.spell (Scan.ofSource (withoutMark source)).lexemes)
        .error ⟨fault, p.line, p.column⟩ := by
  simp only [ofSource, Token.ofSource_eq]
  cases (Scan.ofSource (withoutMark source)).fault <;> rfl

/-- A scan without a fault is laid out over its source. -/
theorem laidOut_of_fault_eq_none {source : Text}
    (h : (Scan.ofSource (withoutMark source)).fault = none) :
    LaidOut source (ofList (Token.place (origin source) (Scan.ofSource (withoutMark source)).lexemes))
      (Scan.ofSource (withoutMark source)).lexemes :=
  ⟨Scan.reads_ofText h, rfl⟩

/-- Both forms of a source start in the first column of the first line. -/
theorem samePlace_origin (source source' : Text) : Position.SamePlace (origin source') (origin source) :=
  ⟨rfl, rfl⟩

/-- A lexeme stands at the same place in both forms, but for white space of a doc comment. -/
theorem alike_standing {source source' u u' : Text} {l l' : Lexeme} (h : Scan.Like u u' l l') :
    Token.Alike (Token.standing ((origin source).past u) l)
      (Token.standing ((origin source').past u') l') := by
  have hplace := (samePlace_origin source source').past u
  refine ⟨h.kind, fun hhtml => ?_, fun hhtml hspace => ?_, h.text, h.plain, h.suits⟩
  · rcases h.start hhtml with rfl | ⟨-, rfl⟩
    · exact hplace.line
    · rw [Position.past_append]
      exact hplace.line
  · rcases h.start hhtml with rfl | ⟨hkind, -⟩
    · exact hplace.column
    · exact absurd hkind hspace

/-- Streams that are laid out over lexemes with images mirror each other. -/
theorem mirrors_of_laidOut {source source' : Text} {s s' : TokenStream} {ls ls' : List Lexeme}
    {φ : Nat → Nat} (h : LaidOut source s ls) (h' : LaidOut source' s' ls')
    (himages : Scan.Images [] [] ls ls' φ) (hfollows : ls.IsChain Scan.Follows) :
    Mirrors s s' φ := by
  constructor
  case zero => exact himages.zero
  case size => rw [h.size_eq, h'.size_eq, himages.length]
  case succ =>
    intro i
    simp only [h.kind?_eq, h'.kind?_eq]
    refine (himages.succ i).imp_right fun ⟨htwo, hclose, hhtml, hnext⟩ => ⟨htwo, hclose, hhtml, ?_⟩
    intro k hk
    obtain ⟨l, hl, rfl⟩ := Option.map_eq_some_iff.1 hk
    exact hnext l hl
  case token =>
    intro i t ht
    rw [h.token?_eq] at ht
    obtain ⟨l, hl, rfl⟩ := Option.map_eq_some_iff.1 ht
    obtain ⟨l', hl', hlike⟩ := himages.like i l hl
    rw [h'.token?_eq, hl']
    exact ⟨_, rfl, alike_standing hlike⟩
  case before =>
    intro i hhtml
    rw [h.kind?_eq] at hhtml ⊢
    obtain ⟨b, hb, hkind⟩ := Option.map_eq_some_iff.1 hhtml
    obtain ⟨hlt, rfl⟩ := List.getElem?_eq_some_iff.1 hb
    rw [List.getElem?_eq_getElem (Nat.lt_of_succ_lt hlt), Option.map_some,
      (List.isChain_iff_getElem.1 hfollows i hlt).before hkind]
  case behind =>
    intro i hhtml k hk
    rw [h.kind?_eq] at hhtml hk
    obtain ⟨a, ha, hkind⟩ := Option.map_eq_some_iff.1 hhtml
    obtain ⟨b, hb, rfl⟩ := Option.map_eq_some_iff.1 hk
    obtain ⟨_, rfl⟩ := List.getElem?_eq_some_iff.1 ha
    obtain ⟨hlt, rfl⟩ := List.getElem?_eq_some_iff.1 hb
    exact (List.isChain_iff_getElem.1 hfollows i hlt).behind hkind
  case text =>
    intro a b hab ha hb
    have hplain {i : Nat} (hi : s.has i (!·.mayBreak) = true) :
        ∃ l, ls[i]? = some l ∧ l.kind.mayBreak = false := by
      rw [has, h.kind?_eq, Option.any_eq_true] at hi
      obtain ⟨k, hk, hbreak⟩ := hi
      obtain ⟨l, hl, rfl⟩ := Option.map_eq_some_iff.1 hk
      exact ⟨l, hl, by simpa using hbreak⟩
    obtain ⟨l, hl, hl'⟩ := hplain ha
    obtain ⟨m, hm, hm'⟩ := hplain hb
    have hfirst := (himages.start_eq hl hl').1
    have hlast := (himages.start_eq hm hm').2
    rw [h.spell_take_add_one hab, h'.spell_take_add_one (himages.strictMono.monotone hab)] at hlast
    simp only [List.nil_append, Text.withReturns_append] at hfirst hlast
    rw [hfirst] at hlast
    exact List.append_cancel_left hlast

/-- The two forms of a source have the same error, or streams that mirror each other. -/
theorem ofSource_withReturns {source : Text} (hreturn : '\r' ∉ source) :
    (∃ e, ofSource source = .error e ∧ ofSource (withReturns source) = .error e) ∨
      ∃ s s' φ, ofSource source = .ok s ∧ ofSource (withReturns source) = .ok s' ∧
        Mirrors s s' φ := by
  have hplain : '\r' ∉ withoutMark source := by
    rw [← Token.mark_append_withoutMark source, List.mem_append, not_or] at hreturn
    exact hreturn.2
  have hscan : Scan.SameScan [] (Scan.ofSource (withoutMark source))
      (Scan.ofSource (withoutMark (withReturns source))) := by
    rw [Token.withoutMark_withReturns]
    exact Scan.sameScan_ofText .html none (withoutMark source) [] hplain
  obtain ⟨φ, himages⟩ := Scan.exists_images hscan.along
  have hfault : (Scan.ofSource (withoutMark (withReturns source))).fault =
      (Scan.ofSource (withoutMark source)).fault := hscan.fault
  cases hclosed : (Scan.ofSource (withoutMark source)).fault with
  | some fault =>
    rw [ofSource_eq, ofSource_eq, hfault, hclosed]
    have hstop : Lexeme.spell _ = withReturns (Lexeme.spell _) := himages.stop
    have hplace := (samePlace_origin source (withReturns source)).past
      (Lexeme.spell (Scan.ofSource (withoutMark source)).lexemes)
    rw [← hstop] at hplace
    refine .inl ⟨_, rfl, ?_⟩
    exact congrArg Except.error (congr (congrArg _ hplace.line) hplace.column)
  | none =>
    have hlaid := laidOut_of_fault_eq_none hclosed
    rw [hclosed] at hfault
    have hlaid' := laidOut_of_fault_eq_none hfault
    refine .inr ⟨_, _, φ, by rw [ofSource_eq, hclosed], by rw [ofSource_eq, hfault], ?_⟩
    exact mirrors_of_laidOut hlaid hlaid' himages (Scan.follows_ofText _ _ _ hplain).1

end TokenStream

end PhpLint
