/-!
# White space

The characters with the Unicode property `White_Space`, and texts with such characters cut
off at their ends; and the two of them that may stand between the parts of a line.
-/

namespace RouteTraffic.Text

/-- The Unicode property `White_Space`. -/
def isBlank (c : Char) : Bool :=
  let n := c.toNat
  (0x09 ≤ n && n ≤ 0x0D) || n == 0x20 || n == 0x85 || n == 0xA0 || n == 0x1680 ||
    (0x2000 ≤ n && n ≤ 0x200A) || n == 0x2028 || n == 0x2029 || n == 0x202F || n == 0x205F ||
    n == 0x3000

/-- The text without the white space it starts with. -/
def trimStart (cs : List Char) : List Char :=
  cs.dropWhile isBlank

/-- The text without the white space it ends with. -/
def trimEnd (cs : List Char) : List Char :=
  (cs.reverse.dropWhile isBlank).reverse

/-- The text without the white space at either end. -/
def trim (cs : List Char) : List Char :=
  trimEnd (trimStart cs)

/-- A space or a tab. -/
def isSpaceOrTab (c : Char) : Bool := c = ' ' || c = '\t'

/-- The text without the spaces and tabs it starts with. -/
def skipSpaces (cs : List Char) : List Char :=
  cs.dropWhile isSpaceOrTab

/-! ### Texts that are trimmed already -/

theorem trimStart_cons {c : Char} (h : isBlank c = false) (rest : List Char) :
    trimStart (c :: rest) = c :: rest :=
  List.dropWhile_cons_of_neg (by rw [h]; decide)

theorem trimStart_of_head? {cs : List Char} (h : ∀ c ∈ cs.head?, isBlank c = false) :
    trimStart cs = cs := by
  cases cs with
  | nil => rfl
  | cons c cs => exact trimStart_cons (h c rfl) cs

theorem trimEnd_append {cs blanks : List Char} (hcs : ∀ c ∈ cs.getLast?, isBlank c = false)
    (hblanks : ∀ c ∈ blanks, isBlank c = true) : trimEnd (cs ++ blanks) = cs := by
  have hlast : trimStart cs.reverse = cs.reverse :=
    trimStart_of_head? fun c hc => hcs c (by rwa [List.head?_reverse] at hc)
  rw [trimEnd, List.reverse_append,
    List.dropWhile_append_of_pos fun c hc => hblanks c (List.mem_reverse.mp hc), ← trimStart,
    hlast, List.reverse_reverse]

theorem trim_of_ends {cs : List Char} (hhead : ∀ c ∈ cs.head?, isBlank c = false)
    (hlast : ∀ c ∈ cs.getLast?, isBlank c = false) : trim cs = cs := by
  have hend : trimEnd (cs ++ []) = cs := trimEnd_append hlast nofun
  rw [List.append_nil] at hend
  rw [trim, trimStart_of_head? hhead, hend]

end RouteTraffic.Text
