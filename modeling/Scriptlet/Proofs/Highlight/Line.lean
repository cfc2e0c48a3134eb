import Scriptlet.Highlight.Line
import Scriptlet.Program.Parser
import Scriptlet.Proofs.Token.Layout

/-!
# What a coloured line is made of

A line under edit is cut into slices: its tokens, and what is between them. The slices tile the
line (`Tiles`), because the tokens lie in it one after the other, and those that are coloured are
the tokens of literals and reserved words. The main statement is `line_colors_tokens`.
-/

namespace Scriptlet

/-- Whether the lexeme is a literal or a word that is reserved, also as an operator. -/
def Lexeme.standsOut : Lexeme → Bool
  | .op .and | .op .or => true
  | l => (Parser.literal? l).isSome || l.isKeyword

namespace Highlight

/-- A piece of a line by the offsets of its ends. -/
structure Slice where
  first : Nat
  last : Nat
  color? : Option Color

/-- The characters of the line that a slice has. -/
def Slice.chars (cs : List Char) (s : Slice) : List Char :=
  (cs.drop s.first).take (s.last - s.first)

/-- A slice of a line as it is shown. -/
def Slice.shown (cs : List Char) (s : Slice) : String :=
  match s.color? with
  | none => String.ofList (s.chars cs)
  | some color => color.code ++ String.ofList (s.chars cs) ++ reset

/-- Whether slices cover the offsets from `i` to `j`, each from where the one before it ended,
and none of them is empty. -/
def Tiles (i j : Nat) : List Slice → Prop
  | [] => i = j
  | s :: slices => s.first = i ∧ i < s.last ∧ Tiles s.last j slices

theorem tiles_append {i j k : Nat} {slices more : List Slice} (h : Tiles i j slices)
    (hmore : Tiles j k more) : Tiles i k (slices ++ more) := by
  induction slices generalizing i with
  | nil =>
      cases h
      exact hmore
  | cons s slices ih => exact ⟨h.1, h.2.1, ih h.2.2⟩

theorem Tiles.le {i j : Nat} {slices : List Slice} (h : Tiles i j slices) : i ≤ j := by
  induction slices generalizing i with
  | nil => exact Nat.le_of_eq h
  | cons s slices ih => exact Nat.le_trans (Nat.le_of_lt h.2.1) (ih h.2.2)

theorem Tiles.inside {i j : Nat} {slices : List Slice} (h : Tiles i j slices) {s : Slice}
    (hs : s ∈ slices) : s.first < s.last ∧ s.last ≤ j := by
  induction slices generalizing i with
  | nil => cases hs
  | cons s slices ih =>
      obtain ⟨rfl, hlt, hrest⟩ := h
      obtain rfl | hs := List.mem_cons.1 hs
      · exact ⟨hlt, hrest.le⟩
      · exact ih hrest hs

/-- The slice of a token. -/
def slice (t : Token) : Slice :=
  ⟨t.pos.offset, t.pos.offset + t.length, lexemeColor? t.lexeme⟩

/-- What is between two offsets, unless there is nothing. -/
def gap (i j : Nat) : List Slice :=
  if i < j then [⟨i, j, none⟩] else []

/-- The slices of the characters from the offset `i` to the end, which is `n`. -/
def cut (n i : Nat) : List Token → List Slice
  | [] => gap i n
  | t :: ts => gap i t.pos.offset ++ slice t :: cut n (t.pos.offset + t.length) ts

theorem slice_mem_cut {t : Token} {ts : List Token} (ht : t ∈ ts) (n i : Nat) :
    slice t ∈ cut n i ts := by
  induction ts generalizing i with
  | nil => cases ht
  | cons u ts ih =>
      rw [cut, List.mem_append, List.mem_cons]
      obtain rfl | ht := List.mem_cons.1 ht
      · exact .inr (.inl rfl)
      · exact .inr (.inr (ih ht _))

theorem tiles_gap {i j : Nat} (h : i ≤ j) : Tiles i j (gap i j) := by
  unfold gap
  split
  · next hlt => exact ⟨rfl, hlt, rfl⟩
  · next hlt => exact Nat.le_antisymm h (Nat.le_of_not_lt hlt)

/-- Whether tokens lie between the offsets `i` and `n`, one after the other. -/
structure Fits (i n : Nat) (ts : List Token) : Prop where
  room : i ≤ n
  starts : ∀ t ∈ ts, i ≤ t.pos.offset
  ends : ∀ t ∈ ts, t.pos.offset + t.length ≤ n
  nonempty : ∀ t ∈ ts, 0 < t.length
  ordered : ts.Pairwise fun t u => t.pos.offset + t.length ≤ u.pos.offset

namespace Fits

theorem of_tiled {l : Lexed} {cs : List Char} (h : l.Tiled cs) : Fits 0 cs.length l.tokens :=
  ⟨Nat.zero_le _, fun _ _ => Nat.zero_le _, h.inside, h.nonempty, h.ordered⟩

variable {i n : Nat} {t : Token} {ts : List Token}

theorem tail (h : Fits i n (t :: ts)) : Fits (t.pos.offset + t.length) n ts :=
  ⟨h.ends t List.mem_cons_self, fun _ => List.rel_of_pairwise_cons h.ordered,
    fun u hu => h.ends u (List.mem_cons_of_mem t hu),
    fun u hu => h.nonempty u (List.mem_cons_of_mem t hu), h.ordered.of_cons⟩

theorem tiles (h : Fits i n ts) : Tiles i n (cut n i ts) := by
  induction ts generalizing i with
  | nil => exact tiles_gap h.room
  | cons t ts ih =>
      have hstart := h.starts t List.mem_cons_self
      have hnonempty := h.nonempty t List.mem_cons_self
      exact tiles_append (tiles_gap hstart)
        ⟨rfl, Nat.lt_add_of_pos_right hnonempty, ih h.tail⟩

end Fits

/-! ### Colours -/

theorem isSome_lexemeColor? (l : Lexeme) : (lexemeColor? l).isSome = l.standsOut := by
  cases l with
  | op o => cases o <;> rfl
  | _ => rfl

theorem filter_gap (i j : Nat) : (gap i j).filter (·.color?.isSome) = [] := by
  unfold gap
  split <;> rfl

/-- The slices in colour are those of the tokens that stand out. -/
theorem filter_cut (n i : Nat) (ts : List Token) :
    (cut n i ts).filter (·.color?.isSome) = (ts.filter (·.lexeme.standsOut)).map slice := by
  induction ts generalizing i with
  | nil => exact filter_gap i n
  | cons t ts ih =>
      have hcolor : (slice t).color?.isSome = t.lexeme.standsOut := isSome_lexemeColor? t.lexeme
      rw [cut, List.filter_append, filter_gap, List.nil_append, List.filter_cons, hcolor, ih,
        List.filter_cons]
      split <;> rfl

/-! ### Texts -/

theorem paint_none (on : Bool) (text : String) : paint on none text = text := by
  cases on <;> rfl

theorem paint_false (color? : Option Color) (text : String) : paint false color? text = text := by
  cases color? <;> rfl

theorem paint_slice (cs : List Char) (s : Slice) :
    paint true s.color? (String.ofList (s.chars cs)) = s.shown cs := by
  unfold Slice.shown
  cases s.color? <;> rfl

theorem join_gap (cs : List Char) (i j : Nat) :
    String.join ((gap i j).map (Slice.shown cs)) = String.ofList ((cs.drop i).take (j - i)) := by
  unfold gap
  split
  · exact String.join_cons.trans (String.append_empty ..)
  · next hle => rw [Nat.sub_eq_zero_of_le (Nat.le_of_not_lt hle)]; rfl

/-- The pieces that the tokens leave to be painted are the slices. -/
theorem join_pieces {cs : List Char} {i : Nat} {ts : List Token} (h : Fits i cs.length ts) :
    String.join ((pieces i (cs.drop i) ts).map fun (color?, ds) =>
      paint true color? (String.ofList ds)) =
        String.join ((cut cs.length i ts).map (Slice.shown cs)) := by
  induction ts generalizing i with
  | nil =>
      have htake : (cs.drop i).take (cs.length - i) = cs.drop i := by
        rw [← List.length_drop, List.take_length]
      rw [cut, join_gap, htake, pieces]
      exact String.join_cons.trans (String.append_empty ..)
  | cons t ts ih =>
      have hstart := h.starts t List.mem_cons_self
      have hgap : (cs.drop i).drop (t.pos.offset - i) = cs.drop t.pos.offset := by
        rw [List.drop_drop, Nat.add_sub_cancel' hstart]
      have hslice : (slice t).chars cs = (cs.drop t.pos.offset).take t.length := by
        rw [Slice.chars, slice, Nat.add_sub_cancel_left]
      rw [cut, List.map_append, String.join_append, join_gap, List.map_cons, String.join_cons,
        ← ih h.tail, ← paint_slice, hslice]
      simp only [pieces, hgap, List.drop_drop, List.map_cons, String.join_cons, paint_none, slice]

/-- Tokens only cut, and take nothing away. -/
theorem flatMap_pieces (i : Nat) (cs : List Char) (ts : List Token) :
    (pieces i cs ts).flatMap (·.2) = cs := by
  induction ts generalizing i cs with
  | nil => exact List.append_nil cs
  | cons t ts ih => simp only [pieces, List.flatMap_cons, ih, List.take_append_drop]

theorem line_false (text : String) : line false text = text := by
  rw [← String.toList_inj, line, String.toList_join, List.flatMap_map]
  simp only [paint_false, String.toList_ofList]
  exact flatMap_pieces 0 text.toList _

/-- A line with colours on is made of slices that tile it. Every token is one of them, and those
of literals and reserved words are in colour. With colours off the line stays as it is. -/
theorem line_colors_tokens (text : String) :
    (∃ slices, Tiles 0 text.toList.length slices ∧
      (∀ s ∈ slices, s.first < s.last ∧ s.last ≤ text.toList.length) ∧
      (∀ t ∈ (tokenize text).tokens, slice t ∈ slices) ∧
      slices.filter (·.color?.isSome) =
        ((tokenize text).tokens.filter (·.lexeme.standsOut)).map slice ∧
      line true text = String.join (slices.map (Slice.shown text.toList))) ∧
    line false text = text := by
  have hfits := Fits.of_tiled (tiled_tokenize text)
  refine ⟨⟨cut text.toList.length 0 (tokenize text).tokens, hfits.tiles, ?_, ?_, ?_, ?_⟩, ?_⟩
  · exact fun s => hfits.tiles.inside
  · exact fun t ht => slice_mem_cut ht _ _
  · exact filter_cut _ _ _
  · exact join_pieces hfits
  · exact line_false text

/-- What follows on a quote that is not closed stays as it is. -/
example : line true "IF x AND \"y" = "\x1b[34mIF\x1b[0m x \x1b[34mAND\x1b[0m \"y" := by
  decide +kernel

end Highlight

end Scriptlet
