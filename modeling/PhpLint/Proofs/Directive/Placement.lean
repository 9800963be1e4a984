import PhpLint.Proofs.Directive.Written
import PhpLint.Proofs.Lexing.Marks

/-!
# Directives among the tokens

Directives are read line by line, without the tokens of the source.  A directive starts with a
marker, and the scan knows every slash and hash (`Scan.Mark`), so where it stands among the tokens
is a case analysis (`placed_of_mark`): in a comment, or, since the reading of lines is no scan, in a
comment that ends too early, across the end of a comment, or in a string, a doc comment or text
outside of code.

The other way around, a comment that starts with a directive is read as one unless the tool is named
before it on its line.

`readsComments_of_ofSource` is both for all the directives of a source.
-/

namespace PhpLint.Directive

open Scan (Mark holdsText)
open Text (splitBytes? splitBytes?_eq_some_iff)

/-- A directive that starts behind the text `before` of a token with a kind and a content. -/
inductive Placed (w : Written) (k : Kind) (content before : Text) : Prop
  /-- All of it stands in a comment. -/
  | inside {after : Text} (hkind : k = .comment) (htext : content = before ++ w.text ++ after)
  /-- It starts in a comment, and what ends the comment is read as part of its list. -/
  | cutOff {after : Text} (hkind : k = .comment) (htext : content = before ++ w.head ++ after)
      (hends : "?>".toList <:+: w.names ∨ "*/".toList <:+: w.names)
  /-- The last slash of a comment is read as part of its marker. -/
  | closer {front : Text} (hkind : k = .comment ∨ k = .closes .docComment)
      (hbefore : before = front ++ ['*']) (htext : content = before ++ ['/'])
  /-- It starts in text that is no comment. -/
  | elsewhere {c : Char} {after : Text} (hkind : holdsText k = true)
      (htext : content = before ++ c :: after)

variable {w : Written}

/-! ## The characters of a directive -/

namespace Written

/-- What stands between the marker and the list. -/
def core (w : Written) : Text := w.gap ++ toolName ++ w.pad ++ "allow(".toList

/-- What stands before the list is the marker and what follows it. -/
theorem head_eq (w : Written) : w.head = w.marker ++ w.core := by
  simp [head, core]

/-- A directive is its marker, what follows it, the list and a closing parenthesis. -/
theorem text_eq (w : Written) : w.text = w.marker ++ w.core ++ (w.names ++ [')']) := by
  simp [text, head_eq]

theorem exists_head_eq (w : Written) : ∃ front, w.head = front ++ ['('] :=
  ⟨w.marker ++ w.gap ++ toolName ++ w.pad ++ "allow".toList, by simp [head]⟩

namespace IsDirective

variable {c : Char} {t : Text}

theorem marker_cases (h : w.IsDirective) :
    w.marker = ['/', '/'] ∨ w.marker = ['#'] ∨ w.marker = ['/', '*'] := by
  have hmarker := h.marker
  simpa [markers] using hmarker

/-- A directive starts with a slash or a hash. -/
theorem exists_cons (h : w.IsDirective) :
    ∃ c rest, w.text = c :: rest ∧ isSlashOrHash c = true := by
  rw [text_eq]
  rcases h.marker_cases with hmarker | hmarker | hmarker <;> rw [hmarker]
  · exact ⟨'/', _, rfl, rfl⟩
  · exact ⟨'#', _, rfl, rfl⟩
  · exact ⟨'/', _, rfl, rfl⟩

/-- Between the marker and the list stand white space and the characters of the tool's name alone. -/
theorem not_mem_core (h : w.IsDirective) (hspace : Unicode.isSpace c = false)
    (hname : c ∉ toolName ++ "allow(".toList) : c ∉ w.core := by
  rw [List.mem_append, not_or] at hname
  have hgap : c ∉ w.gap := fun hmem => by simp [h.gap c hmem] at hspace
  have hpad : c ∉ w.pad := fun hmem => by simp [h.pad c hmem] at hspace
  simp only [core, List.mem_append, not_or]
  exact ⟨⟨⟨hgap, hname.1⟩, hpad⟩, hname.2⟩

/-- What stands right behind the marker. -/
theorem head?_core_ne (h : w.IsDirective) (hspace : Unicode.isSpace c = false)
    (hname : c ∉ toolName ++ "allow(".toList) : (w.core ++ t).head? ≠ some c := by
  have hmem := h.not_mem_core hspace hname
  obtain ⟨d, core, hcore⟩ : ∃ d core, w.core = d :: core := by
    apply List.exists_cons_of_ne_nil
    simp [core]
  rw [hcore] at hmem ⊢
  intro hhead
  obtain rfl := Option.some.inj hhead
  exact hmem List.mem_cons_self

/-- No question mark stands before the list, so no closing tag does. -/
theorem question_not_mem_head (h : w.IsDirective) : '?' ∉ w.head := by
  rw [head_eq, List.mem_append, not_or]
  refine ⟨?_, h.not_mem_core (by decide) (by decide)⟩
  rcases h.marker_cases with hmarker | hmarker | hmarker <;> simp [hmarker]

/-- A comment is not closed between the marker and the list. -/
theorem not_closed_head (h : w.IsDirective) : ¬['*', '/'] <:+: w.head := by
  intro ⟨b, a, heq⟩
  rw [head_eq] at heq
  have hstar : '*' ∉ w.core := h.not_mem_core (by decide) (by decide)
  have hslash : '/' ∉ w.core := h.not_mem_core (by decide) (by decide)
  rcases h.marker_cases with hmarker | hmarker | hmarker
  · have hmem : '*' ∈ w.marker ++ w.core := by simp [← heq]
    simp [hmarker, hstar] at hmem
  · have hmem : '*' ∈ w.marker ++ w.core := by simp [← heq]
    simp [hmarker, hstar] at hmem
  · -- The only star is in the marker, and no slash stands behind it.
    rw [hmarker] at heq
    cases b with
    | nil => cases heq
    | cons c b =>
      have hrest : b ++ ['*', '/'] ++ a = '*' :: w.core := (List.cons.inj heq).2
      have hmem : '/' ∈ '*' :: w.core := by simp [← hrest]
      simp [hslash] at hmem

end IsDirective

/-- Two characters that a directive holds, but not up to its list, stand in the list. -/
theorem exists_of_stop {front back : Text} {a b : Char} (hstop : ¬[a, b] <:+: w.head)
    (hopen : '(' ∉ [a, b]) (hclose : b ≠ ')') (h : w.text = front ++ [a, b] ++ back) :
    ∃ names, front = w.head ++ names ∧ [a, b] <:+: w.names := by
  have hlist : ∃ names, front = w.head ++ names ∧ w.names ++ [')'] = names ++ [a, b] ++ back := by
    rw [text, List.append_assoc] at h
    rcases List.append_eq_append_iff.1 h with ⟨z, hpast, hnames⟩ | ⟨z, hhead, -⟩
    · rcases List.append_eq_append_iff.1 hpast with ⟨y, hhead, hpair⟩ | ⟨names, hfront, rfl⟩
      · -- The parenthesis that opens the list is neither of the two characters.
        rcases List.eq_nil_or_concat y with rfl | ⟨y, c, rfl⟩
        · rw [List.append_nil] at hhead
          rw [List.nil_append] at hpair
          exact ⟨[], by simp [hhead], by rw [hnames, hpair, List.nil_append]⟩
        · obtain ⟨start, hstart⟩ := w.exists_head_eq
          rw [hstart, List.concat_eq_append, ← List.append_assoc] at hhead
          obtain rfl := (List.cons.inj (List.append_inj' hhead rfl).2).1
          exact absurd (by simp [hpair]) hopen
      · exact ⟨names, hfront, hnames⟩
    · exact absurd ⟨front, z, hhead.symm⟩ hstop
  obtain ⟨names, hfront, hnames⟩ := hlist
  refine ⟨names, hfront, ?_⟩
  rcases List.eq_nil_or_concat back with rfl | ⟨back, c, rfl⟩
  · have hlast := congrArg List.getLast? hnames
    simp at hlast
    exact absurd hlast.symm hclose
  · rw [List.concat_eq_append, ← List.append_assoc] at hnames
    exact ⟨names, back, (List.append_inj' hnames rfl).1.symm⟩

end Written

/-! ## Where a directive starts -/

variable {l : Lexeme} {after : List Lexeme} {before behind rest : Text} {c : Char}

/-- What does not end in a carriage return stands before one. -/
theorem isPrefix_of_return {s t returns : Text} (hs : s.getLast? ≠ some '\r')
    (hreturns : returns = [] ∨ returns = ['\r']) (h : s <+: t ++ returns) : s <+: t := by
  rcases hreturns with rfl | rfl
  · rwa [List.append_nil] at h
  · rcases List.prefix_concat_iff.1 h with rfl | hprefix
    · simp at hs
    · exact hprefix

/-- A directive in a line comment stands in it, or its list goes on behind the end of the code. -/
theorem placed_of_lineComment {returns stop : Text} (h : w.IsDirective) (hfeed : '\n' ∉ w.text)
    (hreturns : returns = [] ∨ returns = ['\r'])
    (hstop : stop = [] ∨ (∃ t, stop = '\n' :: t) ∨ ∃ t, stop = '?' :: '>' :: t)
    (htext : w.text <+: behind ++ returns ++ stop) :
    Placed w .comment (before ++ behind) before := by
  have hlast : w.text.getLast? = some ')' := by simp [Written.text]
  have hinside (hshort : w.text <+: behind ++ returns) :
      Placed w .comment (before ++ behind) before := by
    obtain ⟨after, rfl⟩ := isPrefix_of_return (by simp [hlast]) hreturns hshort
    exact .inside rfl (List.append_assoc ..).symm
  rcases List.prefix_or_prefix_of_prefix htext (List.prefix_append (behind ++ returns) stop) with
    hshort | ⟨y, hy⟩
  · exact hinside hshort
  · -- The directive goes on into what ends the comment.
    have hstopped : y <+: stop := by
      rw [← hy] at htext
      exact (List.prefix_append_right_inj _).1 htext
    cases y with
    | nil =>
      rw [List.append_nil] at hy
      exact hinside (by rw [hy])
    | cons d y =>
      rcases hstop with rfl | ⟨t, rfl⟩ | ⟨t, rfl⟩
      · cases List.prefix_nil.1 hstopped
      · obtain ⟨rfl, -⟩ := List.cons_prefix_cons.1 hstopped
        exact absurd (by simp [← hy]) hfeed
      · obtain ⟨rfl, hcode⟩ := List.cons_prefix_cons.1 hstopped
        cases y with
        | nil =>
          rw [← hy] at hlast
          simp at hlast
        | cons d y =>
          obtain ⟨rfl, -⟩ := List.cons_prefix_cons.1 hcode
          have hopen : ¬['?', '>'] <:+: w.head := fun hholds =>
            h.question_not_mem_head (hholds.subset List.mem_cons_self)
          have hstop : w.text = behind ++ returns ++ ['?', '>'] ++ y := by simp [← hy]
          obtain ⟨names, hnames, hends⟩ :=
            Written.exists_of_stop hopen (by decide) (by decide) hstop
          have hhead : w.head.getLast? ≠ some '\r' := by simp [Written.head]
          obtain ⟨after, rfl⟩ := isPrefix_of_return hhead hreturns ⟨names, hnames.symm⟩
          exact .cutOff rfl (List.append_assoc ..).symm (.inl hends)

/-- A directive in a block comment stands in it, or its list goes on behind the comment, or its
marker starts with the last slash. -/
theorem placed_of_blockComment {front : Text} (h : w.IsDirective) (hc : isSlashOrHash c = true)
    (hfront : before ++ c :: behind = front ++ ['*', '/'])
    (htext : w.text <+: c :: behind ++ rest) :
    Placed w .comment (before ++ c :: behind) before := by
  -- The directive starts before the star and slash, or with the slash.
  have hcases : (∃ body, c :: behind = body ++ ['*', '/']) ∨
      before = front ++ ['*'] ∧ c = '/' ∧ behind = [] := by
    rcases List.append_eq_append_iff.1 hfront with ⟨body, -, hbody⟩ | ⟨y, hbefore, hclose⟩
    · exact .inl ⟨body, hbody⟩
    · obtain ⟨rfl, hslash, hbehind⟩ := Scan.eq_of_close hclose hc
      exact .inr ⟨hbefore, hslash, hbehind⟩
  rcases hcases with ⟨body, hbody⟩ | ⟨rfl, rfl, rfl⟩
  · rw [hbody] at htext ⊢
    rcases List.prefix_or_prefix_of_prefix htext (List.prefix_append (body ++ ['*', '/']) rest) with
      ⟨after, hafter⟩ | ⟨y, hy⟩
    · rw [← hafter]
      exact .inside rfl (List.append_assoc ..).symm
    · obtain ⟨names, rfl, hends⟩ :=
        Written.exists_of_stop h.not_closed_head (by decide) (by decide) hy.symm
      have hcontent : before ++ (w.head ++ names ++ ['*', '/']) =
          before ++ w.head ++ (names ++ ['*', '/']) := by simp
      exact .cutOff rfl hcontent (.inr hends)
  · exact .closer (.inl rfl) rfl rfl

/-- What stands behind the first character of a directive, the scan does not read as an attribute or
a doc comment. -/
theorem second_of_isPrefix {t : Text} (h : w.IsDirective) (htext : w.text <+: c :: t) :
    c = '/' ∧ t.head? = some '/' ∨ c = '#' ∧ t.head? ≠ some '[' ∨
      c = '/' ∧ t.head? = some '*' ∧ t.tail.head? ≠ some '*' := by
  obtain ⟨rest, hrest⟩ := htext
  rw [Written.text_eq, List.append_assoc, List.append_assoc] at hrest
  rcases h.marker_cases with hmarker | hmarker | hmarker <;> rw [hmarker] at hrest
  · obtain ⟨rfl, rfl⟩ := List.cons.inj hrest
    exact .inl ⟨rfl, rfl⟩
  · obtain ⟨rfl, rfl⟩ := List.cons.inj hrest
    exact .inr (.inl ⟨rfl, h.head?_core_ne (by decide) (by decide)⟩)
  · obtain ⟨rfl, rfl⟩ := List.cons.inj hrest
    exact .inr (.inr ⟨rfl, rfl, h.head?_core_ne (by decide) (by decide)⟩)

/-- Where a directive starts, there is a comment or text that may look like one. -/
theorem placed_of_mark (h : w.IsDirective) (hfeed : '\n' ∉ w.text) (hc : isSlashOrHash c = true)
    (hl : l.text = before ++ c :: behind) (hmark : Mark l after before c behind)
    (htext : w.text <+: c :: behind ++ Lexeme.spell after) : Placed w l.kind l.text before := by
  cases hmark with
  | text hkind => exact .elsewhere hkind hl
  | lineComment hkind hafter hreturns hstop =>
    rw [hafter, ← List.append_assoc] at htext
    rw [hkind, hl]
    exact placed_of_lineComment h hfeed hreturns hstop htext
  | blockComment hkind hfront =>
    rw [hkind, hl]
    exact placed_of_blockComment h hc (hl.symm.trans hfront) htext
  | docOpener hslash hbehind =>
    rw [hbehind] at htext
    rcases second_of_isPrefix h htext with ⟨-, hnext⟩ | ⟨hhash, -⟩ | ⟨-, -, hnext⟩
    · cases hnext
    · rw [hhash] at hslash
      cases hslash
    · exact absurd rfl hnext
  | docCloser hkind hc hbefore hbehind =>
    rw [hbehind, hc] at hl
    have hstar : before = [] ++ ['*'] := hbefore
    exact .closer (.inr hkind) hstar hl
  | operator hhash hslash =>
    rcases second_of_isPrefix h htext with ⟨hc, hnext⟩ | ⟨hc, hnext⟩ | ⟨hc, hnext, -⟩
    · exact absurd hnext (hslash hc).1
    · exact absurd (hhash hc) hnext
    · exact absurd hnext (hslash hc).2

/-! ## All directives of a source -/

/-- The directives that a source's lines show, and the tokens that they stand in. -/
structure ReadsComments (source : Text) (s : TokenStream) : Prop where
  /-- A rule is allowed on a line by the directives that stand there or on the line before. -/
  read : ∀ n rule, (check source n rule).isAllowed = true ↔
    ∃ m front w, (m = n ∨ m + 1 = n) ∧ Stands source m front w ∧ w.Names rule
  /-- Each of them is placed in a token, most often in a comment. -/
  placed : ∀ m front w, Stands source m front w → ∃ i t start after before, s.token? i = some t ∧
    splitBytes? t.offset source = some (start, after) ∧ front = start ++ before ∧
    Placed w t.kind t.content before
  /-- A comment that starts with a directive has it read, unless the tool is named before it on its
  line. -/
  honoured : ∀ i t start after (w : Written), s.token? i = some t → t.kind = .comment →
    splitBytes? t.offset source = some (start, after) → w.IsDirective → '\n' ∉ w.text →
    w.text <+: t.content → ¬toolName <:+: Text.lastLine start →
    ∀ n rule, t.line = n ∨ t.line + 1 = n → w.Names rule → (check source n rule).isAllowed = true

/-- A directive at the start of a token stands on the token's line. -/
theorem stands_of_token {source start after : Text} {s : TokenStream} {i : Nat} {t : Token}
    (h : TokenStream.ofSource source = .ok s) (ht : s.token? i = some t)
    (hstart : splitBytes? t.offset source = some (start, after)) (hw : w.IsDirective)
    (hfeed : '\n' ∉ w.text) (hcontent : w.text <+: t.content)
    (hfirst : ¬toolName <:+: Text.lastLine start) : Stands source t.line start w := by
  obtain ⟨ls, hlaid⟩ := TokenStream.exists_laidOut h
  have hsplit := hlaid.splitBytes?_offset ht
  have hsource := (splitBytes?_eq_some_iff.1 hsplit).1
  rw [hsplit] at hstart
  obtain ⟨rfl, -⟩ := Prod.mk.inj (Option.some.inj hstart)
  refine ⟨hw, ?_, ?_, hfeed, hfirst⟩
  · conv_rhs => rw [hsource]
    exact (List.prefix_append_right_inj _).2 (hcontent.trans (List.prefix_append _ _))
  · rw [hlaid.line_eq ht, List.count_append, Token.count_mark, Nat.zero_add]

/-- **Directives and comments.**  In a source that is lexed, the directives read are those on the
lines; each stands in a comment, across the end of one, or in text that is no comment; and the first
directive of a line is read when a comment starts with it. -/
theorem readsComments_of_ofSource {source : Text} {s : TokenStream}
    (h : TokenStream.ofSource source = .ok s) : ReadsComments source s := by
  constructor
  case read => exact fun n rule => isAllowed_check_iff
  case placed =>
    intro m front w hstands
    obtain ⟨c, text, htext, hc⟩ := hstands.directive.exists_cons
    obtain ⟨tail, htail⟩ := hstands.text
    have hsource : source = front ++ c :: (text ++ tail) := by simp [← htail, htext]
    obtain ⟨i, t, start, after, before, behind, ht, hstart, hfront, hcontent, hrest, hmark⟩ :=
      TokenStream.exists_mark h hc hsource
    refine ⟨i, t, start, _, before, ht, hstart, hfront, ?_⟩
    have hprefix : w.text <+: c :: behind ++ Lexeme.spell after := by
      rw [List.cons_append, ← hrest, htext]
      exact ⟨tail, rfl⟩
    exact placed_of_mark hstands.directive hstands.unbroken hc hcontent hmark hprefix
  case honoured =>
    intro i t start after w ht hkind hstart hw hfeed hcontent hfirst n rule hn hrule
    have hstands := stands_of_token h ht hstart hw hfeed hcontent hfirst
    exact isAllowed_check_iff.2 ⟨t.line, start, w, hn, hstands, hrule⟩

/-- The directive in the comment behind an attribute is read, and it covers the line behind its own; the
slash in the string starts none. -/
theorem readsComments_of_ofSource_attribute :
    ∃ s, TokenStream.ofSource "<?php\n#[A] /* php-standards: allow(x) */\n'/';".toList = .ok s ∧
      s.size = 9 ∧
      (check "<?php\n#[A] /* php-standards: allow(x) */\n'/';".toList 3 ['x']).isAllowed = true ∧
      ReadsComments "<?php\n#[A] /* php-standards: allow(x) */\n'/';".toList s := by
  have hsize : (TokenStream.ofSource
      "<?php\n#[A] /* php-standards: allow(x) */\n'/';".toList).map TokenStream.size = .ok 9 := by
    decide +kernel
  obtain ⟨s, hs, hsize⟩ := TokenStream.exists_of_size_ofSource hsize
  exact ⟨s, hs, hsize, by decide +kernel, readsComments_of_ofSource hs⟩

/-- Lines are read without their tokens: a string alone may hold a directive, and a string in front
of a comment may take the comment's directive away. -/
theorem check_in_string :
    (∃ s, TokenStream.ofSource "<?php $s = '// php-standards: allow(all)';".toList = .ok s ∧
      (∀ t ∈ s.tokens.toList, t.kind ≠ .comment) ∧
      (check "<?php $s = '// php-standards: allow(all)';".toList 1 ['x']).isAllowed = true) ∧
    ∃ s, TokenStream.ofSource "<?php 'php-standards:'; // php-standards: allow(x)".toList = .ok s ∧
      (s.token? 4).map (fun t => (t.kind, t.content, t.line)) =
        some (.comment, "// php-standards: allow(x)".toList, 1) ∧
      (check "<?php 'php-standards:'; // php-standards: allow(x)".toList 1 ['x']).isAllowed =
        false := by
  have hstring : (TokenStream.ofSource "<?php $s = '// php-standards: allow(all)';".toList).map
      (fun s => s.tokens.toList.all fun t => t.kind != .comment) = .ok true := by
    decide +kernel
  have hcomment : (TokenStream.ofSource
      "<?php 'php-standards:'; // php-standards: allow(x)".toList).map
      (fun s => (s.token? 4).map fun t => (t.kind, t.content, t.line)) =
        .ok (some (.comment, "// php-standards: allow(x)".toList, 1)) := by
    decide +kernel
  obtain ⟨s, hs, hkinds⟩ := TokenStream.exists_of_map_ofSource hstring
  obtain ⟨s', hs', hcomment⟩ := TokenStream.exists_of_map_ofSource hcomment
  refine ⟨⟨s, hs, ?_, by decide +kernel⟩, s', hs', hcomment, by decide +kernel⟩
  intro t ht
  simpa using List.all_eq_true.1 hkinds t ht

end PhpLint.Directive
