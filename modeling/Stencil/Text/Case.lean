import Stencil.Text.CaseTables

/-! # Upper and lower case

Unicode's full case mappings without locale: one character may become several.  A capital sigma is
the only letter whose small form depends on its place, since it has one of its own at the end of a
word.

* `upper_of_lt`, `lower_of_lt`: on ASCII the mappings are those of the core library. -/

namespace Stencil.Text

/-- The partner of `c` in a table of shifts, if a stretch holds it. -/
def shifted? (table : Array CaseShift) (c : Char) : Option Char :=
  let code := c.toNat
  (table.find? fun s => s.first ≤ code && code ≤ s.last && (code - s.first) % s.step == 0).map
    fun s => Char.ofNat ((code : Int) + s.shift).toNat

/-- The upper case of a character. -/
def upper (c : Char) : List Char :=
  if c.toNat < 128 then [c.toUpper]
  else
    match upperExpansions.lookup c.toNat with
    | some codes => codes.map Char.ofNat
    | none => [(shifted? upperShifts c).getD c]

/-- The lower case of a character on its own. -/
def lower (c : Char) : List Char :=
  if c.toNat < 128 then [c.toLower]
  else if c.toNat = 0x130 then ['i', Char.ofNat 0x307]
  else [(shifted? lowerShifts c).getD c]

/-- Whether the character has a case. -/
def isCased (c : Char) : Bool :=
  if c.toNat < 128 then c.isAlpha else casedRanges.contains c

/-- Whether the first character that is not passed over has a case. -/
def meetsCased (cs : List Char) : Bool :=
  match cs.dropWhile caseIgnorableRanges.contains with
  | [] => false
  | c :: _ => isCased c

/-- The lower case of a text.  `before` holds what precedes it and `done` the lower case of that,
both last character first. -/
def lowerFrom (before done : List Char) : List Char → List Char
  | [] => done.reverse
  | c :: cs =>
    let small :=
      if c.toNat = 0x3A3 then
        -- The form for the end of a word: a cased letter before it and none after it.
        [Char.ofNat (if meetsCased before && !meetsCased cs then 0x3C2 else 0x3C3)]
      else lower c
    lowerFrom (c :: before) (small.reverse ++ done) cs

/-- The text in upper case. -/
def upcase (s : String) : String :=
  String.ofList (s.toList.flatMap upper)

/-- The text in lower case. -/
def downcase (s : String) : String :=
  String.ofList (lowerFrom [] [] s.toList)

/-- The first character in upper case and every other one in its own lower case. -/
def capitalize (s : String) : String :=
  match s.toList with
  | [] => ""
  | c :: cs => String.ofList (upper c ++ cs.flatMap lower)

theorem upper_of_lt {c : Char} (h : c.toNat < 128) : upper c = [c.toUpper] := by
  simp [upper, h]

theorem lower_of_lt {c : Char} (h : c.toNat < 128) : lower c = [c.toLower] := by
  simp [lower, h]

end Stencil.Text
