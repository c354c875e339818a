import SliceLint.Source.Cursor
import Std.Data.TreeMap

/-!
# Recognisers

A recogniser reads a stretch of the text and gives the nodes it found, or refuses. Either way it
reports the farthest index at which a token was refused, which is where a syntax fault shows.

Choice is ordered: the first alternative that succeeds is taken. Every loop is bounded by the
length of the text.

**Memory.** What was found out about a construct at a place is kept, so that no construct is read
twice at one place. The outcome does not depend on what is kept.
-/

namespace SliceLint.Source

/-- What a recogniser answers: the farthest refusal, and the nodes read with the cursor behind
them. -/
structure Outcome where
  farthest : Nat
  result? : Option (List Part × Cursor)

/-- Outcomes by the number of the construct and the place. -/
abbrev Memory := Std.TreeMap Nat Outcome

/-- Reading with a memory. -/
abbrev Reading := StateM Memory

abbrev Recogniser := Cursor → Reading Outcome

namespace Recogniser

/-- Succeed with the nodes read so far. -/
def give (ts : List Part) : Recogniser := fun c => pure ⟨0, some (ts, c)⟩

/-- Succeed without reading. -/
def done : Recogniser := give []

/-- Refuse the next token. -/
def refuse : Recogniser := fun c => pure ⟨c.token.index, none⟩

/-- Go on from an outcome. -/
def andThen (o : Reading Outcome) (k : List Part → Recogniser) : Reading Outcome := do
  match ← o with
  | ⟨far, none⟩ => return ⟨far, none⟩
  | ⟨far, some (ts, c)⟩ =>
    let o' ← k ts c
    return ⟨max far o'.farthest, o'.result?⟩

/-- Go on from an outcome, or, if it is a refusal, otherwise. -/
def orElse (o : Reading Outcome) (k : List Part → Recogniser) (otherwise : Reading Outcome) :
    Reading Outcome := do
  match ← o with
  | ⟨far, none⟩ =>
    let o' ← otherwise
    return ⟨max far o'.farthest, o'.result?⟩
  | ⟨far, some (ts, c)⟩ =>
    let o' ← k ts c
    return ⟨max far o'.farthest, o'.result?⟩

/-- Go on with what `p` reads, or stop with what was read before. -/
def extend (ts : List Part) (p : Recogniser) (k : List Part → Recogniser) : Recogniser := fun c =>
  orElse (p c) k (give ts c)

/-- One after the other. -/
def chain : List Recogniser → Recogniser
  | [] => done
  | p :: ps => fun c =>
    andThen (p c) fun ts d => andThen (chain ps d) fun us e => give (ts ++ us) e

/-- The first that succeeds. -/
def choice : List Recogniser → Recogniser
  | [] => refuse
  | [p] => p
  | p :: ps => fun c => orElse (p c) give (choice ps c)

/-- At most one. -/
def optional (p : Recogniser) : Recogniser := extend [] p give

def manyFrom (p : Recogniser) : Nat → List Part → Recogniser
  | 0, ts => give ts
  | n + 1, ts => fun c =>
    extend ts p (fun us d =>
      if d.index ≤ c.index then give ts c else manyFrom p n (us.reverse ++ ts) d) c

/-- As many as there are. -/
def many (p : Recogniser) : Recogniser := fun c =>
  andThen (manyFrom p c.limit [] c) fun ts d => give ts.reverse d

/-- One or more, separated. -/
def separated (separator p : Recogniser) : Recogniser :=
  chain [p, many (chain [separator, p])]

/-- Read what follows without moving. -/
def ahead (p : Recogniser) : Recogniser := fun c => andThen (p c) fun _ _ => give [] c

/-- Succeed where the cursor meets a condition. -/
def guardAt (p : Cursor → Bool) : Recogniser := fun c => if p c then done c else refuse c

/-- Choose by what the cursor shows. -/
def branchAt (f : Cursor → Recogniser) : Recogniser := fun c => f c c

/-! ## Nodes -/

/-- Gather nodes under a new one; the comments that lead them stay outside it. -/
def gather (kind : String) (ts : List Part) (h : isPartKind true kind := by exact Eq.refl true) :
    List Part :=
  let inner := ts.dropWhile isExtra
  let start := match inner with
    | t :: _ => t.start
    | [] => .origin
  ts.takeWhile isExtra ++ [Part.branch kind "" start inner h]

/-- A construct of the given kind. -/
def node (kind : String) (p : Recogniser) (h : isPartKind true kind := by exact Eq.refl true) :
    Recogniser :=
  fun c => andThen (p c) fun ts => give (gather kind ts h)

/-- A construct of the given kind that keeps the text it spans. -/
def spanning (kind : String) (p : Recogniser)
    (h : isPartKind true kind := by exact Eq.refl true) : Recogniser :=
  fun c => andThen (p c) fun ts d =>
    let first := c.token
    let text := String.ofList (first.rest.take (d.index - first.index))
    let inner := ts.dropWhile isExtra
    give (ts.takeWhile isExtra ++ [Part.branch kind text first.place inner h]) d

/-- Give nodes a role, comments excepted. -/
def inRoles (field : String) (ts : List Part) : List Part :=
  ts.map fun t => if isExtra t then t else t.inRole field

/-- Let the nodes read play a role in their parent. -/
def role (field : String) (p : Recogniser) : Recogniser := fun c =>
  andThen (p c) fun ts => give (inRoles field ts)

/-! ## Tokens -/

/-- A leaf spanning the characters counted by `measure`, after blanks and comments. -/
def leafOf (kind : String) (named : Bool) (measure : List Char → Option Nat)
    (h : isPartKind named kind := by exact Eq.refl true) : Recogniser := fun c =>
    let (comments, d) := trivia c
    match measure d.rest with
    | none => pure ⟨d.index, none⟩
    | some n =>
      let (t, e) := d.takeLeaf kind named n h
      pure ⟨d.index, some (comments ++ [t], e)⟩

/-- Characters that would make a longer token of the given punctuation. -/
def extensions (s : String) : List Char :=
  match s with
  | "=" => ['=', '>']
  | "!" => ['=']
  | "&" => ['&', '=']
  | "|" => ['|', '=']
  | "." => ['.']
  | "*" => ['*', '=']
  | _ => []

/-- A punctuation token. -/
def token (s : String) : Recogniser :=
  let cs := s.toList
  let n := cs.length
  let measure (rest : List Char) : Option Nat :=
    if cs.isPrefixOf rest && !(extensions s).contains ((rest.drop n).headD ' ') then some n
    else none
  leafOf s false measure (Eq.refl true)

/-- The length of the escape of a character in a name. -/
def nameEscape? : List Char → Option Nat
  | '\\' :: 'u' :: '\x7b' :: rest =>
    let n := (rest.takeWhile fun c => c.isDigit || ('a' ≤ c.toLower && c.toLower ≤ 'f')).length
    if n > 0 && (rest.drop n).head? == some '\x7d' then some (n + 4) else none
  | '\\' :: 'u' :: rest =>
    let n := ((rest.take 4).takeWhile fun c => c.isDigit || ('a' ≤ c.toLower && c.toLower ≤ 'f')).length
    if n = 4 then some 6 else none
  | _ => none

/-- The length of the run of name characters. -/
def nameLength : Nat → List Char → Nat
  | 0, _ => 0
  | n + 1, cs =>
    let k := (cs.takeWhile isNamePart).length
    match nameEscape? (cs.drop k) with
    | none => k
    | some m => k + m + nameLength n (cs.drop (k + m))

/-- The length of the word that starts here, if one does. -/
def wordLength? (cs : List Char) : Option Nat :=
  if isNameStart (cs.headD ' ') || (nameEscape? cs).isSome then some (nameLength cs.length cs)
  else none

/-- The word at the next token; empty when there is none. -/
def wordAt (c : Cursor) : String :=
  let rest := c.token.rest
  match wordLength? rest with
  | some n => String.ofList (rest.take n)
  | none => ""

/-- The given keyword. -/
def keyword (w : String) : Recogniser :=
  let cs := w.toList
  let n := cs.length
  let measure (rest : List Char) : Option Nat :=
    if cs.isPrefixOf rest && wordLength? rest == some n then some n else none
  leafOf w false measure (Eq.refl true)

/-- Any word that meets a condition, as a named leaf. -/
def word (kind : String) (allowed : String → Bool)
    (h : isPartKind true kind := by exact Eq.refl true) : Recogniser :=
  let measure (rest : List Char) : Option Nat :=
    match wordLength? rest with
    | some n => if allowed (String.ofList (rest.take n)) then some n else none
    | none => none
  leafOf kind true measure h

/-- Any word, as a name of the given kind. -/
def name (kind : String) (h : isPartKind true kind := by exact Eq.refl true) : Recogniser :=
  word kind (fun _ => true) h

/-- A word that stands for a value of its own, such as a literal. -/
def constant (w : String) (h : isPartKind true w := by exact Eq.refl true) : Recogniser :=
  word w (· == w) h

/-- The next token starts with one of the given characters. -/
def nextIn (cs : List Char) (c : Cursor) : Bool := cs.contains c.token.head

end Recogniser

end SliceLint.Source
