import PhpLint.Proofs.Checked.FunctionComment
import PhpLint.Proofs.Checked.Pairing
import PhpLint.Proofs.Checked.Sniffs

/-!
# No access out of range

Every check and every table construction has an answer, at every index of every stream that memory
holds, whatever its tokens are: the ones of a source, or ones that no source has.  No token is taken at
an index outside of the stream, no piece ends behind its end, no difference is below zero, no sum too
large for a machine word, no text cut inside of a character, and no loop stands still.

`Answers` lists what is asked of a stream, and `answers_of_fits` is the main result.  A search for the
kinds in a list and a search for the kinds that are not in it are both searches for a class of kinds.
-/

namespace PhpLint.Checked

open TokenStream (Fits)

/-- A check with its setting. -/
inductive Check
  | strictDeclaration
  | functionComment (testClasses : List Text)
  | docCommentSpacing (spacing : DocCommentSpacing.Spacing)
  | arrayTrailingComma
  | operandOrder (style : OperandOrder.Style)

namespace Check

/-- The sniff that makes the check. -/
def sniff (severity : Severity) : Check → Sniff
  | strictDeclaration => StrictDeclaration.sniff severity
  | functionComment testClasses => FunctionComment.sniff severity testClasses
  | docCommentSpacing spacing => DocCommentSpacing.sniff severity spacing
  | arrayTrailingComma => ArrayTrailingComma.sniff severity
  | operandOrder style => OperandOrder.sniff severity style

/-- The findings at an index, read with their accesses. -/
def findings (ctx : FileContext) (i : Nat) : Check → Checked (List Finding)
  | strictDeclaration => Checked.strictDeclaration ctx i
  | functionComment testClasses => Checked.functionComment testClasses ctx i
  | docCommentSpacing spacing => Checked.docCommentSpacing spacing ctx i
  | arrayTrailingComma => Checked.arrayTrailingComma ctx i
  | operandOrder style => Checked.operandOrder style ctx i

/-- The violations at an index, read with their accesses. -/
def process (check : Check) (severity : Severity) (ctx : FileContext) (i : Nat) :
    Checked (List Violation) :=
  List.map ((check.sniff severity).violation ctx) <$> check.findings ctx i

/-- Each check has its findings at every token of the stream. -/
theorem findings_eq (check : Check) (severity : Severity) {ctx : FileContext} {i : Nat}
    (hs : ctx.stream.Fits) (hi : i < ctx.stream.size) :
    check.findings ctx i = .ok ((check.sniff severity).findings ctx i) := by
  cases check with
  | strictDeclaration => exact strictDeclaration_eq hs i
  | functionComment testClasses => exact functionComment_eq hs testClasses hi
  | docCommentSpacing spacing => exact docCommentSpacing_eq hs spacing hi
  | arrayTrailingComma => exact arrayTrailingComma_eq hs hi
  | operandOrder style => exact operandOrder_eq hs style hi

end Check

/-- Whatever is asked of a stream has its answer. -/
structure Answers (s : TokenStream) : Prop where
  partner? (i : Nat) : Checked.partner? s i = .ok (s.partner? i)
  findNext (p : Kind → Bool) (i : Nat) : Checked.findNext s p i = .ok (s.findNext p i)
  findNextBefore (p : Kind → Bool) (i j : Nat) :
    Checked.findNextBefore s p i j = .ok (s.findNextBefore p i j)
  findPrevious (p : Kind → Bool) (i : Nat) : Checked.findPrevious s p i = .ok (s.findPrevious p i)
  nextSignificant (i : Nat) (hi : i ≤ 2 ^ 53) :
    Checked.nextSignificant s i = .ok (s.nextSignificant i)
  previousSignificant (i : Nat) : Checked.previousSignificant s i = .ok (s.previousSignificant i)
  docTags (i : Nat) : Checked.docTags s i = .ok (s.docTags i)
  declaredName? (i : Nat) (hi : i ≤ 2 ^ 53) : Checked.declaredName? s i = .ok (s.declaredName? i)
  typeAt? (symbols : SymbolTable) (i : Nat) (hi : i ≤ s.size) :
    Checked.typeAt? symbols s i = .ok (symbols.typeAt? s i)
  failure? (i : Nat) : Checked.strictFailure? s i = .ok (StrictDeclaration.failure? s i)
  /-- Each of the checks, in every file with these tokens. -/
  process (check : Check) (severity : Severity) (ctx : FileContext) (hctx : ctx.stream = s)
    (i : Nat) (hi : i < s.size) :
    check.process severity ctx i = .ok ((check.sniff severity).process ctx i)

/-- **No access is out of range**: neither on the way to the table of several files, nor on the way to
any answer about one of them. -/
theorem answers_of_fits {streams : List TokenStream} (hfits : ∀ s ∈ streams, s.Fits) :
    table streams = .ok (SymbolTable.ofStreams streams) ∧ ∀ s ∈ streams, Answers s := by
  refine ⟨table_eq hfits, fun s hs => ?_⟩
  have hs := hfits s hs
  exact
    { partner? := partner?_eq s
      findNext := findNext_eq s
      findNextBefore := findNextBefore_eq s
      findPrevious := findPrevious_eq hs
      nextSignificant := fun i hi => nextSignificant_eq (by omega)
      previousSignificant := previousSignificant_eq hs
      docTags := docTags_eq s
      declaredName? := fun i hi => declaredName?_eq hs (by omega)
      typeAt? := fun symbols i hi => typeAt?_eq hs symbols hi
      failure? := strictFailure?_eq hs
      process := by
        intro check severity ctx hctx i hi
        subst hctx
        exact map_eq (check.findings_eq severity hs hi) _ }

/-- A stream that no source has: its lines and columns are in no order, a brace is closed before any is
opened, and the comment between the keywords has lost its text. -/
def malformed : TokenStream :=
  .ofList
    [⟨.closes .curly, ")".toList, 2 ^ 53, 2 ^ 53, 2 ^ 53⟩, ⟨.keyword .kwClass, [], 0, 7, 0⟩,
     ⟨.opens .docComment, "*/".toList, 9, 9, 9⟩, ⟨.docTag, "@return".toList, 1, 0, 3⟩,
     ⟨.closes .docComment, "/**".toList, 2, 0, 0⟩, ⟨.keyword .kwFunction, "é".toList, 3, 1, 1⟩,
     ⟨.identifier, "f".toList, 0, 0, 0⟩]

/-- No source has such a stream: its numbers and its pairs fit nothing, and yet everything is answered. -/
theorem answers_of_fits_malformed :
    malformed.Fits ∧
      table [malformed] = .ok (SymbolTable.ofStreams [malformed]) ∧
      Checked.findPrevious malformed (· == .docTag) (2 ^ 53) = .ok (some 3) ∧
      Check.process (.functionComment []) .error ⟨[], malformed, .empty, .ofString "f.php"⟩ 5 =
        .ok [{ code := "PS002", rule := "function-comment", reason := some "MissingReturnType",
               severity := .error, location := ⟨.ofString "f.php", 1, 0, 3, 7⟩,
               message := "Return type missing for @return tag in function comment",
               suggestion := none, labels := [] }] := by
  have hfits : malformed.Fits := ⟨by decide, by decide, by decide, by decide⟩
  have hall : ∀ s ∈ [malformed], s.Fits := by
    intro s hs
    exact List.mem_singleton.1 hs ▸ hfits
  obtain ⟨htable, hanswers⟩ := answers_of_fits hall
  have hanswers := hanswers malformed (List.mem_singleton_self malformed)
  refine ⟨hfits, htable, ?_, ?_⟩
  · rw [hanswers.findPrevious]
    decide
  · rw [hanswers.process _ _ _ rfl 5 (by decide)]
    decide +kernel

end PhpLint.Checked
