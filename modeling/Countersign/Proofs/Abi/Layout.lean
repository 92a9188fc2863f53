import Countersign.Abi.Encoding
import Mathlib.Algebra.Ring.Nat
import Mathlib.Data.List.Forall2

/-!
# Arguments are read back

`Abi.encode` puts the words of a table behind the heads and leaves only a distance in its place.
This module shows that `Abi.decode?` follows the distances: what was written is read back, for any
arguments that have the shapes to be read (`Abi.Fits`), as long as the bytes can be counted by a
word (`Abi.decode?_encode`).

The reading functions look at all bytes at once and are told where to begin. So what they need is
said in these terms as well: some words *stand at* a distance (`Abi.StandsAt`). One lemma for each
reading function says that it finds the words that stand there, and the arguments are read by
induction on them, while the heads that are left and the tails that are left stand where the next
head and the next tail are expected.

Without the bound a distance or a count would be written modulo `2 ^ 256`. For the arguments of one
table the bytes still determine the rows (`Abi.encode_table_inj`), because their number does.
-/

namespace Countersign.Abi

variable {bytes : Bytes} {offset : Nat} {ws : List Word}

theorem wordBytes_append (ws ws' : List Word) :
    wordBytes (ws ++ ws') = wordBytes ws ++ wordBytes ws' :=
  List.flatMap_append

/-! ### Words at a distance -/

/-- Some words stand at a distance in bytes, among other words. -/
def StandsAt (bytes : Bytes) (offset : Nat) (ws : List Word) : Prop :=
  ∃ front rest : List Word, bytes = wordBytes (front ++ ws ++ rest) ∧ offset = 32 * front.length

/-- All words of a byte string stand at its beginning, which is where reading begins. -/
theorem standsAt_wordBytes (ws : List Word) : StandsAt (wordBytes ws) 0 ws :=
  ⟨[], [], by rw [List.nil_append, List.append_nil], rfl⟩

namespace StandsAt

/-- The first of some words stand where all of them do. -/
theorem left {ws' : List Word} (h : StandsAt bytes offset (ws ++ ws')) :
    StandsAt bytes offset ws := by
  obtain ⟨front, rest, rfl, rfl⟩ := h
  exact ⟨front, ws' ++ rest, by simp only [List.append_assoc], rfl⟩

/-- The others stand behind them. -/
theorem right {ws' : List Word} (h : StandsAt bytes offset (ws ++ ws')) :
    StandsAt bytes (offset + 32 * ws.length) ws' := by
  obtain ⟨front, rest, rfl, rfl⟩ := h
  refine ⟨front ++ ws, rest, by simp only [List.append_assoc], ?_⟩
  rw [List.length_append, Nat.mul_add]

theorem tail {w : Word} (h : StandsAt bytes offset (w :: ws)) :
    StandsAt bytes (offset + 32) ws := by
  have hword : StandsAt bytes offset ([w] ++ ws) := h
  exact hword.right

/-- Words that stand somewhere do not reach beyond the end. So a distance is bounded by the length,
and fits into a word if this does. -/
theorem le_length (h : StandsAt bytes offset ws) : offset + 32 * ws.length ≤ bytes.length := by
  obtain ⟨front, rest, rfl, rfl⟩ := h
  rw [length_wordBytes, List.length_append, List.length_append]
  omega

/-- A word is read where it stands. -/
theorem wordAt? {w : Word} (h : StandsAt bytes offset (w :: ws)) :
    Abi.wordAt? bytes offset = some w := by
  obtain ⟨front, rest, rfl, rfl⟩ := h
  have hbytes : wordBytes (front ++ w :: ws ++ rest) =
      wordBytes front ++ (w.toBytes ++ wordBytes (ws ++ rest)) := by
    rw [List.append_assoc, wordBytes_append]
    rfl
  have hlength := length_wordBytes front
  rw [hbytes, Abi.wordAt?, ← hlength, List.drop_left, List.take_left' (Word.length_toBytes w),
    Word.ofBytes?, if_pos (Word.length_toBytes w), Word.ofBytes_toBytes]

/-- So are words, one after the other. -/
theorem wordsAt? (h : StandsAt bytes offset ws) :
    Abi.wordsAt? bytes ws.length offset = some ws := by
  induction ws generalizing offset with
  | nil => rfl
  | cons w ws ih =>
    rw [List.length_cons, Abi.wordsAt?, h.wordAt?, ih h.tail]
    rfl

/-- Rows are read where their words stand. They are cut by their width, so they need to have the
same. -/
theorem rowsAt? {width : Nat} {rows : List (List Word)}
    (hwidth : ∀ row ∈ rows, row.length = width) (h : StandsAt bytes offset rows.flatten) :
    Abi.rowsAt? bytes width rows.length offset = some rows := by
  -- On the rows: behind the first row stand the others.
  induction rows generalizing offset with
  | nil => rfl
  | cons row rows ih =>
    have hrow := hwidth row List.mem_cons_self
    rw [List.flatten_cons] at h
    have hfirst := h.left.wordsAt?
    have hrest := ih (fun row' hmem => hwidth row' (List.mem_cons_of_mem _ hmem)) h.right
    rw [hrow] at hfirst hrest
    rw [List.length_cons, Abi.rowsAt?, hfirst, hrest]
    rfl

end StandsAt

/-! ### Arguments -/

/-- **An argument of a shape**: the rows of a table have its width, which is not zero. Rows of no
words could not be counted by their bytes. -/
inductive Fits : Argument → Shape → Prop where
  | word (w : Word) : Fits (.word w) .word
  | table {rows : List (List Word)} {width : Nat} (positive : 0 < width)
      (rectangular : ∀ row ∈ rows, row.length = width) : Fits (.table rows) (.table width)

theorem length_flatten_of_rectangular {rows : List (List Word)} {width : Nat}
    (rectangular : ∀ row ∈ rows, row.length = width) :
    rows.flatten.length = rows.length * width := by
  rw [List.length_flatten, List.map_congr_left rectangular, List.map_const',
    List.sum_replicate_nat]

/-- There is one head for each argument, whatever its tail. -/
theorem length_heads (offset : Nat) (arguments : List Argument) :
    (heads offset arguments).length = arguments.length := by
  induction arguments generalizing offset with
  | nil => rfl
  | cons argument arguments ih =>
    cases argument <;> rw [heads, List.length_cons, ih, List.length_cons]

/-- **A table is read back** from its head and its tail. The head gives the distance of the tail,
and the tail begins with the number of rows. -/
theorem read?_table {head : Nat} {rows : List (List Word)} {width : Nat} {rest : List Word}
    (hbound : bytes.length < 2 ^ 256) (positive : 0 < width)
    (rectangular : ∀ row ∈ rows, row.length = width)
    (hhead : StandsAt bytes head (BitVec.ofNat 256 offset :: ws))
    (htail : StandsAt bytes offset ((Argument.table rows).tail ++ rest)) :
    (Shape.table width).read? bytes head = some (.table rows) := by
  have htable : StandsAt bytes offset (BitVec.ofNat 256 rows.length :: rows.flatten) := htail.left
  -- Distance and number of rows are no greater than the number of bytes.
  have hlength := htable.le_length
  rw [List.length_cons, length_flatten_of_rectangular rectangular] at hlength
  have hrows : rows.length ≤ rows.length * width := Nat.le_mul_of_pos_right _ positive
  have hoffset : (BitVec.ofNat 256 offset).toNat = offset := by
    rw [BitVec.toNat_ofNat]
    exact Nat.mod_eq_of_lt (by omega)
  have hcount : (BitVec.ofNat 256 rows.length).toNat = rows.length := by
    rw [BitVec.toNat_ofNat]
    exact Nat.mod_eq_of_lt (by omega)
  unfold Shape.read?
  simp only [hhead.wordAt?, Option.bind_eq_bind, Option.bind_some, hoffset, htable.wordAt?, hcount,
    htable.tail.rowsAt? rectangular]
  rw [if_pos (by omega)]

/-- **Arguments are read back** from heads and tails that stand where they are expected. The
induction is on the arguments, and each takes its head and its tail off. -/
theorem decodeFrom?_of_standsAt {arguments : List Argument} {shapes : List Shape} {head : Nat}
    (hbound : bytes.length < 2 ^ 256) (hfits : List.Forall₂ Fits arguments shapes)
    (hheads : StandsAt bytes head (heads offset arguments))
    (htails : StandsAt bytes offset (arguments.flatMap Argument.tail)) :
    decodeFrom? bytes head shapes = some arguments := by
  -- On the arguments: each head is followed by the others, and each tail by the others.
  induction hfits generalizing head offset with
  | nil => rfl
  | @cons argument shape arguments shapes hfit _ ih =>
    rw [List.flatMap_cons] at htails
    cases hfit with
    | word w =>
      have hrest := ih hheads.tail htails
      rw [decodeFrom?, Shape.read?, hheads.wordAt?, hrest]
      rfl
    | @table rows width positive rectangular =>
      have hrest := ih hheads.tail htails.right
      rw [decodeFrom?, read?_table hbound positive rectangular hheads htails, hrest]
      rfl

/-- What is written is read back. This is what a contract on the other side of a chain does. -/
theorem decode?_encode {arguments : List Argument} {shapes : List Shape}
    (hfits : List.Forall₂ Fits arguments shapes) (hbound : (encode arguments).length < 2 ^ 256) :
    decode? shapes (encode arguments) = some arguments := by
  have hwords := standsAt_wordBytes (words arguments)
  -- The first tail is expected right behind the heads, one word for each argument.
  refine decodeFrom?_of_standsAt hbound hfits hwords.left ?_
  have htails := hwords.right
  rw [length_heads, Nat.zero_add] at htails
  exact htails

/-! ### What the bytes determine -/

/-- Words are told apart by their bytes, as each takes 32 of them. -/
theorem wordBytes_inj {ws ws' : List Word} : wordBytes ws = wordBytes ws' ↔ ws = ws' := by
  refine ⟨?_, fun h => by rw [h]⟩
  intro h
  have hlength : ws.length = ws'.length := by
    have hbytes := congrArg List.length h
    rw [length_wordBytes, length_wordBytes] at hbytes
    omega
  -- Both are read from the same bytes.
  have hread := (standsAt_wordBytes ws).wordsAt?
  rw [h, hlength, (standsAt_wordBytes ws').wordsAt?] at hread
  exact (Option.some.inj hread).symm

/-- Arguments that are words are written one after the other, since none of them has a tail. -/
theorem encode_words (ws : List Word) : encode (ws.map .word) = wordBytes ws := by
  have hheads : ∀ offset, heads offset (ws.map .word) = ws := by
    intro offset
    induction ws with
    | nil => rfl
    | cons w ws ih => rw [List.map_cons, heads, ih]
  have htails : (ws.map Argument.word).flatMap Argument.tail = [] := by
    simp [List.flatMap_map, Argument.tail]
  rw [encode, words, hheads, htails, List.append_nil]

/-- **The bytes of one table** determine its rows, if all rows have the same width. No bound is
needed: the number of rows is read off the number of bytes, and not off the count. -/
theorem encode_table_inj {rows rows' : List (List Word)} {width : Nat} (positive : 0 < width)
    (rectangular : ∀ row ∈ rows, row.length = width)
    (rectangular' : ∀ row ∈ rows', row.length = width) :
    encode [.table rows] = encode [.table rows'] ↔ rows = rows' := by
  refine ⟨?_, fun h => by rw [h]⟩
  intro h
  have hwords : words [.table rows] = words [.table rows'] := wordBytes_inj.mp h
  -- Behind the distance and the count there are the rows, one after the other.
  have hflatten : rows.flatten = rows'.flatten := by
    simpa [words, heads, Argument.tail] using congrArg (List.drop 2) hwords
  -- As many words, and therefore as many rows.
  have hcount : rows.length = rows'.length := by
    have hlength := congrArg List.length hflatten
    rw [length_flatten_of_rectangular rectangular, length_flatten_of_rectangular rectangular']
      at hlength
    exact Nat.eq_of_mul_eq_mul_right positive hlength
  rw [List.eq_iff_flatten_eq]
  refine ⟨hflatten, ?_⟩
  rw [List.map_congr_left rectangular, List.map_congr_left rectangular', List.map_const',
    List.map_const', hcount]

end Countersign.Abi
