/-! Blank characters and the words between them. -/
namespace LittleComputer.Blank

/-- The characters that separate words: the ASCII blanks, the four information separators, and
the blanks of the rest of Unicode, the no-break spaces among them. -/
def isBlank (c : Char) : Bool :=
  let n := c.toNat
  (0x09 ≤ n && n ≤ 0x0D) || (0x1C ≤ n && n ≤ 0x20) || n == 0x85 || n == 0xA0 || n == 0x1680 ||
    (0x2000 ≤ n && n ≤ 0x200A) || n == 0x2028 || n == 0x2029 || n == 0x202F || n == 0x205F ||
    n == 0x3000

def consWord : List Char → List (List Char) → List (List Char)
  | [], words => words
  | word, words => word :: words

/-- The word that a text begins with, which is empty before a blank, and the words after it. -/
def scan : List Char → List Char × List (List Char)
  | [] => ([], [])
  | c :: rest =>
    let (word, words) := scan rest
    if isBlank c then ([], consWord word words) else (c :: word, words)

/-- The longest runs of characters that are not blank, in order. -/
def words (text : String) : List String :=
  let (word, words) := scan text.toList
  (consWord word words).map String.ofList

/-- A text of blanks alone has no words. -/
theorem words_of_blank (text : String) (h : ∀ c ∈ text.toList, isBlank c = true) :
    words text = [] := by
  have scan_blank : ∀ cs : List Char, (∀ c ∈ cs, isBlank c = true) → scan cs = ([], []) := by
    intro cs
    induction cs with
    | nil => intro _; rfl
    | cons c rest ih =>
      intro h
      rw [scan, ih fun d hd => h d (List.mem_cons_of_mem _ hd)]
      simp [h c List.mem_cons_self, consWord]
  simp [words, scan_blank _ h, consWord]

end LittleComputer.Blank
