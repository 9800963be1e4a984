import PhpLint.Utf8

/-!
# Patterns of ignore files

The patterns that say which paths version control leaves out.  They are read as text but match the
bytes of a path.  A question mark and a star keep within one component, two stars that fill a
component stand for any number of them, a class in square brackets holds bytes, and braces hold
alternatives with commas between them.  A backslash takes the meaning of the next character away.  A
square bracket that opens no class stands for itself, and so do all after it.
-/

namespace PhpLint.Ignore

/-- A part of a pattern. -/
inductive Part
  | literal (c : Char)
  | anyByte
  /-- Any bytes of one component. -/
  | star
  /-- Two stars in front: any directories, or none. -/
  | anyDirectories
  /-- Two stars at the end: anything inside. -/
  | anythingInside
  /-- Two stars between slashes: the slashes with any directories between them, or one slash. -/
  | slashes
  | byteClass (negated : Bool) (ranges : List (Char × Char))
  | alternatives (branches : List (List Part))
  deriving Repr, Inhabited

/-! ## Classes -/

/-- What the characters after an opening square bracket are. -/
inductive ClassEnd
  | closed (ranges : List (Char × Char)) (after : Text)
  /-- No bracket closes the class. -/
  | unclosed
  /-- The ends of a range are the wrong way round. -/
  | reversed

/-- A class after its first character, given the ranges so far, the last one first.  A dash at
either end stands for itself. -/
def classRest (ranges : List (Char × Char)) (inRange : Bool) : Text → ClassEnd
  | [] => .unclosed
  | ']' :: rest => .closed (if inRange then ('-', '-') :: ranges else ranges) rest
  | c :: rest =>
    match inRange, ranges with
    | true, (low, _) :: more => if c < low then .reversed else classRest ((low, c) :: more) false rest
    | _, _ => if c = '-' then classRest ranges true rest else classRest ((c, c) :: ranges) false rest

/-- A class after its opening bracket and its sign. -/
def classBody : Text → ClassEnd
  | [] => .unclosed
  | c :: rest => classRest [(c, c)] false rest

/-- The class is negated, and its characters follow. -/
def classSign : Text → Bool × Text
  | '!' :: rest | '^' :: rest => (true, rest)
  | t => (false, t)

/-- A class that is closed leaves less of the pattern. -/
theorem length_classRest_lt {ranges out : List (Char × Char)} {inRange : Bool} {t after : Text}
    (h : classRest ranges inRange t = .closed out after) : after.length < t.length := by
  fun_induction classRest ranges inRange t with
  | case1 => contradiction
  | case2 => simp_all
  | case3 => contradiction
  | case4 _ _ _ _ _ _ _ ih => exact Nat.lt_succ_of_lt (ih h)
  | case5 _ _ _ _ _ ih => exact Nat.lt_succ_of_lt (ih h)
  | case6 _ _ _ _ _ _ _ ih => exact Nat.lt_succ_of_lt (ih h)

/-- Reading the sign of a class, if it has one, leaves no more of the pattern. -/
theorem length_classSign_le (t : Text) : (classSign t).2.length ≤ t.length := by
  unfold classSign
  split <;> simp

/-- What follows a class that is closed is shorter than what follows its opening bracket. -/
theorem length_classBody_lt {out : List (Char × Char)} {t after : Text}
    (h : classBody t = .closed out after) : after.length < t.length := by
  unfold classBody at h
  split at h
  · contradiction
  · exact Nat.lt_succ_of_lt (length_classRest_lt h)

/-! ## Reading -/

/-- A group in braces that is still open: the parts before it, the last one first, and its finished
alternatives. -/
structure OpenGroup where
  before : List Part
  branches : List (List Part)

/-- How far a pattern is read. -/
structure Reading where
  /-- The open groups, innermost first. -/
  groups : List OpenGroup := []
  /-- The parts since then, the last one first. -/
  parts : List Part := []
  /-- The character before. -/
  previous : Option Char := none
  /-- A square bracket may still open a class. -/
  classes : Bool := true

namespace Reading

/-- The reading after one more part with a last character. -/
def push (r : Reading) (part : Part) (last : Char) : Reading :=
  { r with parts := part :: r.parts, previous := some last }

/-- The last two stars stand for themselves. -/
def pushStars (r : Reading) : Reading := (r.push .star '*').push .star '*'

/-- The last two stars fill a component that follows other parts; the slash before them, if it is
one, belongs to them. -/
def pushComponents (r : Reading) (part : Part) (last : Char) : Reading :=
  let part := match r.parts.head? with
    | some .anyDirectories => .anyDirectories
    | some .anythingInside => .anythingInside
    | _ => part
  { r with parts := part :: r.parts.tail, previous := some last }

/-- Whether two stars after other parts may fill a component. -/
def mayFill (r : Reading) : Bool :=
  r.previous == some '/' || !r.groups.isEmpty && (r.previous == some ',' || r.previous == some '{')

/-- The reading after two stars, and the text after them and their slash. -/
def twoStars (r : Reading) (t : Text) : Reading × Text :=
  if r.parts.isEmpty then
    match t with
    | [] => (r.push .anyDirectories '*', [])
    | '/' :: rest => (r.push .anyDirectories '/', rest)
    | _ => (r.pushStars, t)
  else if !r.mayFill then (r.pushStars, t)
  else match t with
    | [] => (r.pushComponents .anythingInside '*', [])
    | '/' :: rest => (r.pushComponents .slashes '/', rest)
    | c :: _ =>
      if !r.groups.isEmpty && (c == ',' || c == '}') then (r.pushComponents .anythingInside '*', t)
      else (r.pushStars, t)

/-- The part says nothing. -/
def isVoid : Part → Bool
  | .alternatives [] => true
  | _ => false

/-- The reading after an opening brace. -/
def openGroup (r : Reading) : Reading :=
  { r with groups := ⟨r.parts, []⟩ :: r.groups, parts := [], previous := some '{' }

/-- The reading after a comma. -/
def comma (r : Reading) : Reading :=
  match r.groups with
  | [] => r.push (.literal ',') ','
  | g :: outer =>
    { r with groups := ⟨g.before, r.parts.reverse :: g.branches⟩ :: outer, parts := [],
             previous := some ',' }

/-- The reading after a closing brace.  Alternatives that say nothing do not count. -/
def closeGroup? (r : Reading) : Option Reading :=
  match r.groups with
  | [] => none
  | g :: outer =>
    let branches := (r.parts.reverse :: g.branches).filter fun b => !b.all isVoid
    some { r with groups := outer, parts := .alternatives branches :: g.before,
                  previous := some '}' }

/-- Reading behind two stars leaves no more of the pattern. -/
theorem length_twoStars_le (r : Reading) (t : Text) : (r.twoStars t).2.length ≤ t.length := by
  unfold twoStars
  repeat' split
  all_goals simp

end Reading

/-- The reading of the rest of a pattern; there is none when an escape or a group is incomplete or
the ends of a range are the wrong way round. -/
def readFrom (r : Reading) (t : Text) : Option Reading :=
  match t with
  | [] => if r.groups.isEmpty then some r else none
  | '?' :: rest => readFrom (r.push .anyByte '?') rest
  | '*' :: '*' :: rest => readFrom (r.twoStars rest).1 (r.twoStars rest).2
  | '*' :: rest => readFrom (r.push .star '*') rest
  | '{' :: rest => readFrom r.openGroup rest
  | '}' :: rest => r.closeGroup?.bind fun r => readFrom r rest
  | ',' :: rest => readFrom r.comma rest
  | ['\\'] => none
  | '\\' :: c :: rest => readFrom (r.push (.literal c) c) rest
  | '[' :: rest =>
    if r.classes then
      match _h : classBody (classSign rest).2 with
      | .closed ranges after => readFrom (r.push (.byteClass (classSign rest).1 ranges) ']') after
      | .unclosed => readFrom { r.push (.literal '[') '[' with classes := false } rest
      | .reversed => none
    else readFrom (r.push (.literal '[') '[') rest
  | c :: rest => readFrom (r.push (.literal c) c) rest
termination_by t.length
decreasing_by
  all_goals
    simp only [List.length_cons]
    try have h1 := Reading.length_twoStars_le r rest
    try have h2 := length_classBody_lt _h
    have h3 := length_classSign_le rest
    omega

/-- The parts of a pattern. -/
def parse? (pattern : Text) : Option (List Part) :=
  (readFrom {} pattern).map fun r => r.parts.reverse

/-! ## Matching -/

/-- The byte of a slash. -/
def slash : UInt8 := 47

/-- The bytes of a class. -/
def classBytes (ranges : List (Char × Char)) : List (UInt8 × UInt8) :=
  ranges.flatMap fun (low, high) =>
    let lows := String.utf8EncodeChar low
    let highs := String.utf8EncodeChar high
    if low = high then lows.map fun b => (b, b)
    else
      lows.dropLast.map (fun b => (b, b)) ++
        ((lows.getLast?).toList.flatMap fun b => highs.head?.toList.map fun c => (b, c)) ++
        highs.tail.map fun b => (b, b)

/-- What follows some bytes at the front of others. -/
def stripBytes : List UInt8 → List UInt8 → Option (List UInt8)
  | [], bs => some bs
  | _ :: _, [] => none
  | a :: as, b :: bs => if a = b then stripBytes as bs else none

/-- A test holds for what follows some bytes of one component. -/
def withinComponent (test : List UInt8 → Bool) : List UInt8 → Bool
  | [] => test []
  | b :: bs => test (b :: bs) || b != slash && withinComponent test bs

/-- A test holds for what follows a slash. -/
def afterSlash (test : List UInt8 → Bool) : List UInt8 → Bool
  | [] => false
  | b :: bs => b == slash && test bs || afterSlash test bs

/-- A test holds for some end of the bytes. -/
def afterAny (test : List UInt8 → Bool) : List UInt8 → Bool
  | [] => test []
  | b :: bs => test (b :: bs) || afterAny test bs

mutual

/-- A part stands for some bytes in front, and a test holds for the rest. -/
def Part.accepts (test : List UInt8 → Bool) : Part → List UInt8 → Bool
  | .literal c, bs => (stripBytes (String.utf8EncodeChar c) bs).any test
  | .anyByte, bs =>
    match bs with
    | b :: rest => b != slash && test rest
    | [] => false
  | .star, bs => withinComponent test bs
  | .anyDirectories, bs => test bs || afterSlash test bs
  | .anythingInside, bs =>
    match bs with
    | b :: rest => b == slash && afterAny test rest
    | [] => false
  | .slashes, bs =>
    match bs with
    | b :: rest => b == slash && (test rest || afterSlash test rest)
    | [] => false
  | .byteClass negated ranges, bs =>
    match bs with
    | b :: rest =>
      ((classBytes ranges).any fun (low, high) => low ≤ b && b ≤ high) != negated && test rest
    | [] => false
  | .alternatives branches, bs => branches.isEmpty && test bs || anyAccepts test branches bs

/-- Parts stand for some bytes in front, and a test holds for the rest. -/
def allAccept (test : List UInt8 → Bool) : List Part → List UInt8 → Bool
  | [], bs => test bs
  | p :: ps, bs => p.accepts (fun rest => allAccept test ps rest) bs

/-- One of several lists of parts stands for some bytes in front, and a test holds for the rest. -/
def anyAccepts (test : List UInt8 → Bool) : List (List Part) → List UInt8 → Bool
  | [], _ => false
  | ps :: more, bs => allAccept test ps bs || anyAccepts test more bs

end

/-- The parts stand for all the bytes.  Two stars alone stand for everything. -/
def acceptsPath (parts : List Part) (path : List UInt8) : Bool :=
  match parts with
  | [.anyDirectories] => true
  | _ => allAccept List.isEmpty parts path

end PhpLint.Ignore
