import Mathlib
import Pinyon.Kernel.Font

namespace Pinyon
namespace Kernel

/-!
# Drawing on the display

A string is drawn character by character, and a character pixel by pixel.  The
positions are computed in 32 bits, and so are the indices into the buffer.
-/

/-- The answer of the GPU that `init` uses. -/
structure DisplayMailboxMessage where
  physWidth : BitVec 32
  physHeight : BitVec 32
  virtWidth : BitVec 32
  virtHeight : BitVec 32
  depth : BitVec 32
  pitch : BitVec 32

/-- `m_width`, `m_height`, `m_depth` and `m_pitch`. -/
structure Display where
  width : BitVec 32
  height : BitVec 32
  depth : BitVec 32
  pitch : BitVec 32

/-- A store to `m_buffer`. -/
structure Write where
  index : BitVec 32
  color : BitVec 32

namespace Display

/-- `init`, behind the answer; `none` is a panic. -/
def init (displayDepth : BitVec 32) (message : DisplayMailboxMessage) : Option Display :=
  if message.physWidth ≠ message.virtWidth then none
  else if message.physHeight ≠ message.virtHeight then none
  else if message.depth ≠ displayDepth then none
  else some
    { width := message.physWidth
      height := message.physHeight
      depth := message.depth
      pitch := message.pitch }

def drawPixel (display : Display) (x y color : BitVec 32) : Write :=
  let bytesPerPixel := display.depth / 8
  { index := x + (y * display.pitch) / bytesPerPixel, color := color }

def drawCharacter (display : Display) (ch : UInt8) (x y color : BitVec 32) : List Write :=
  (List.range Font.height).flatMap fun fontY =>
    (List.range Font.width).flatMap fun fontX =>
      if Font.characterHasVisiblePixel ch fontX fontY then
        [display.drawPixel (x + BitVec.ofNat 32 fontX) (y + BitVec.ofNat 32 fontY) color]
      else []

def newline : UInt8 := 10

/-- The loop of `draw_string`. -/
def drawFrom (display : Display) (originalX color : BitVec 32) :
    List UInt8 -> BitVec 32 -> BitVec 32 -> List Write
  | [], _, _ => []
  | ch :: string, x, y =>
      if ch = newline then
        drawFrom display originalX color string originalX (y + BitVec.ofNat 32 (Font.height + 2))
      else if display.width < x + BitVec.ofNat 32 Font.width then
        drawFrom display originalX color string x y
      else if display.width < y then
        drawFrom display originalX color string x y
      else
        display.drawCharacter ch x y color ++
          drawFrom display originalX color string (x + BitVec.ofNat 32 (Font.width + 2)) y

def drawString (display : Display) (string : List UInt8) (x y color : BitVec 32) : List Write :=
  display.drawFrom x color string x y

/-! ## The layout of a string -/

/-- A character with its line and its place there. -/
structure Place where
  line : Nat
  column : Nat
  ch : UInt8

/-- The characters of a string, laid out in lines. -/
def places : List UInt8 -> Nat -> Nat -> List Place
  | [], _, _ => []
  | ch :: string, line, column =>
      if ch = newline then places string (line + 1) 0
      else { line, column, ch } :: places string line (column + 1)

/-- Where the columns of a line begin. -/
def left (x : BitVec 32) (column : Nat) : BitVec 32 :=
  x + BitVec.ofNat 32 ((Font.width + 2) * column)

/-- Where the lines begin. -/
def top (y : BitVec 32) (line : Nat) : BitVec 32 :=
  y + BitVec.ofNat 32 ((Font.height + 2) * line)

/-- The test of the column. -/
def Fits (display : Display) (x : BitVec 32) : Prop :=
  x + BitVec.ofNat 32 Font.width ≤ display.width

instance (display : Display) (x : BitVec 32) : Decidable (display.Fits x) :=
  inferInstanceAs (Decidable (_ ≤ _))

/-- A character is drawn if all columns up to it fit, and its line passes the test
that it is put to. -/
def Drawn (display : Display) (x y : BitVec 32) (place : Place) : Prop :=
  top y place.line ≤ display.width ∧
    forall column, column ≤ place.column -> display.Fits (left x column)

instance (display : Display) (x y : BitVec 32) (place : Place) :
    Decidable (display.Drawn x y place) :=
  inferInstanceAs (Decidable (_ ∧ forall column, column ≤ place.column -> _))

def drawPlace (display : Display) (x y color : BitVec 32) (place : Place) : List Write :=
  if display.Drawn x y place then
    display.drawCharacter place.ch (left x place.column) (top y place.line) color
  else []

variable {display : Display} {x y color : BitVec 32}

theorem left_zero (x : BitVec 32) : left x 0 = x :=
  BitVec.add_zero x

theorem left_succ (x : BitVec 32) (column : Nat) :
    left x (column + 1) = left x column + BitVec.ofNat 32 (Font.width + 2) := by
  rw [left, left, Nat.mul_succ, BitVec.ofNat_add, BitVec.add_assoc]

theorem top_zero (y : BitVec 32) : top y 0 = y :=
  BitVec.add_zero y

theorem top_succ (y : BitVec 32) (line : Nat) :
    top y (line + 1) = top y line + BitVec.ofNat 32 (Font.height + 2) := by
  rw [top, top, Nat.mul_succ, BitVec.ofNat_add, BitVec.add_assoc]

/-- What the loop knows in front of a place: it is at its column, or it is stuck at
an earlier one, or nothing is drawn on the line. -/
def At (display : Display) (originalX originalY : BitVec 32) (line column : Nat)
    (x : BitVec 32) : Prop :=
  top originalY line ≤ display.width ->
    (forall earlier, earlier < column -> display.Fits (left originalX earlier)) ∧
      x = left originalX column ∨
    ¬(forall earlier, earlier < column -> display.Fits (left originalX earlier)) ∧
      ¬display.Fits x

/-- The tests of the loop at a place say whether its character is drawn. -/
theorem At.drawn_iff {originalX originalY x : BitVec 32} (place : Place)
    (there : display.At originalX originalY place.line place.column x) :
    display.Drawn originalX originalY place <->
      display.Fits x ∧ top originalY place.line ≤ display.width := by
  constructor
  · rintro ⟨high, fits⟩
    rcases there high with ⟨_, same⟩ | ⟨stuck, _⟩
    · exact ⟨same ▸ fits place.column (Nat.le_refl _), high⟩
    · exact absurd (fun earlier less => fits earlier (Nat.le_of_lt less)) stuck
  · rintro ⟨fits, high⟩
    rcases there high with ⟨before, same⟩ | ⟨_, stuck⟩
    · refine ⟨high, fun column notBehind => ?_⟩
      rcases Nat.lt_or_eq_of_le notBehind with less | here
      · exact before column less
      · rw [here, ← same]
        exact fits
    · exact absurd fits stuck

theorem At.drawn_next {originalX originalY x : BitVec 32} (place : Place)
    (there : display.At originalX originalY place.line place.column x)
    (drawn : display.Drawn originalX originalY place) :
    display.At originalX originalY place.line (place.column + 1)
      (x + BitVec.ofNat 32 (Font.width + 2)) := by
  intro high
  left
  refine ⟨fun earlier less => drawn.2 earlier (Nat.le_of_lt_succ less), ?_⟩
  rcases there high with ⟨_, same⟩ | ⟨stuck, _⟩
  · rw [left_succ, same]
  · exact absurd (fun earlier less => drawn.2 earlier (Nat.le_of_lt less)) stuck

theorem At.skipped_next {originalX originalY x : BitVec 32} (place : Place)
    (there : display.At originalX originalY place.line place.column x)
    (skipped : ¬display.Drawn originalX originalY place) :
    display.At originalX originalY place.line (place.column + 1) x := by
  intro high
  right
  refine ⟨fun fits => skipped ⟨high, fun column notBehind => ?_⟩, fun fits => ?_⟩
  · exact fits column (Nat.lt_succ_of_le notBehind)
  · exact skipped ((At.drawn_iff place there).mpr ⟨fits, high⟩)

/-- The loop draws the characters of the layout that are to be drawn. -/
theorem drawFrom_eq (display : Display) (originalX originalY color : BitVec 32)
    (string : List UInt8) {line column : Nat} {x : BitVec 32}
    (there : display.At originalX originalY line column x) :
    display.drawFrom originalX color string x (top originalY line) =
      (places string line column).flatMap (display.drawPlace originalX originalY color) := by
  induction string generalizing line column x with
  | nil => rfl
  | cons ch string inductionHypothesis =>
      rw [drawFrom, places]
      by_cases ends : ch = newline
      · rw [if_pos ends, if_pos ends, ← top_succ originalY line]
        apply inductionHypothesis
        intro _
        left
        exact ⟨fun earlier wrong => absurd wrong (Nat.not_lt_zero earlier), (left_zero _).symm⟩
      · rw [if_neg ends, if_neg ends, List.flatMap_cons]
        have tests := At.drawn_iff ⟨line, column, ch⟩ there
        by_cases drawn : display.Drawn originalX originalY ⟨line, column, ch⟩
        · rcases tests.mp drawn with ⟨fits, high⟩
          have same : x = left originalX column := by
            rcases there high with ⟨_, same⟩ | ⟨_, stuck⟩
            · exact same
            · exact absurd fits stuck
          rw [if_neg (BitVec.not_lt.mpr fits), if_neg (BitVec.not_lt.mpr high),
            inductionHypothesis (At.drawn_next ⟨line, column, ch⟩ there drawn), drawPlace,
            if_pos drawn, ← same]
        · have rest := inductionHypothesis (At.skipped_next ⟨line, column, ch⟩ there drawn)
          rw [drawPlace, if_neg drawn, List.nil_append, ← rest]
          by_cases fits : display.Fits x
          · have low : ¬top originalY line ≤ display.width := fun high => drawn (tests.mpr ⟨fits, high⟩)
            rw [if_neg (BitVec.not_lt.mpr fits), if_pos (BitVec.not_le.mp low)]
          · rw [if_pos (BitVec.not_le.mp fits)]

theorem drawString_eq (display : Display) (string : List UInt8) (x y color : BitVec 32) :
    display.drawString string x y color =
      (places string 0 0).flatMap (display.drawPlace x y color) := by
  have started : display.At x y 0 0 x := by
    intro _
    left
    exact ⟨fun earlier wrong => absurd wrong (Nat.not_lt_zero earlier), (left_zero x).symm⟩
  have drawn := display.drawFrom_eq x y color string started
  rw [top_zero] at drawn
  exact drawn

theorem mem_drawCharacter {ch : UInt8} {write : Write} :
    write ∈ display.drawCharacter ch x y color <->
      Exists fun fontX => Exists fun fontY =>
        fontX < Font.width ∧ Font.characterHasVisiblePixel ch fontX fontY = true ∧
          write = display.drawPixel (x + BitVec.ofNat 32 fontX) (y + BitVec.ofNat 32 fontY) color := by
  simp only [drawCharacter, List.mem_flatMap, List.mem_range]
  constructor
  · rintro ⟨fontY, _, fontX, inside, member⟩
    split at member
    next visible => exact ⟨fontX, fontY, inside, visible, List.mem_singleton.mp member⟩
    next => cases member
  · rintro ⟨fontX, fontY, inside, visible, rfl⟩
    have high := Font.lt_of_visible visible
    refine ⟨fontY, Nat.lt_add_right Font.padding high, fontX, inside, ?_⟩
    rw [if_pos visible]
    exact List.mem_singleton_self _

/-! ## Inside the buffer -/

/-- 32 bits for each pixel, and no gap between the rows. -/
structure Dense (display : Display) : Prop where
  depth : display.depth = 32
  pitch : display.pitch.toNat = 4 * display.width.toNat

/-- The buffer ends behind the last pixel of the last row. -/
def InBuffer (display : Display) (write : Write) : Prop :=
  write.index.toNat < display.width.toNat * display.height.toNat

/-- A pixel of a character is above the lower edge of the display.  If the column of the
character or the offset of the row in the buffer has wrapped, the index that comes of it
is in the buffer. -/
def PixelInside (display : Display) (left top fontX fontY : Nat) : Prop :=
  if left + Font.width ≤ display.width.toNat ∧ (top + fontY) * display.width.toNat < 2 ^ 30 then
    top + fontY < display.height.toNat
  else
    (left + fontX + (top + fontY) * display.width.toNat % 2 ^ 30) % 2 ^ 32 <
      display.width.toNat * display.height.toNat

theorem Dense.width_lt (dense : display.Dense) : display.width.toNat < 2 ^ 30 := by
  have small := display.pitch.isLt
  rw [dense.pitch] at small
  omega

/-- The index of a pixel of a character. -/
theorem Dense.index_toNat (dense : display.Dense) (high : y ≤ display.width) {fontX fontY : Nat}
    (inside : fontX < Font.width) (above : fontY < Font.charHeight) :
    (display.drawPixel (x + BitVec.ofNat 32 fontX) (y + BitVec.ofNat 32 fontY) color).index.toNat =
      (x.toNat + fontX + (y.toNat + fontY) * display.width.toNat % 2 ^ 30) % 2 ^ 32 := by
  have low : y.toNat < 2 ^ 30 := Nat.lt_of_le_of_lt (BitVec.le_def.mp high) dense.width_lt
  have shortX : fontX < 8 := inside
  have shortY : fontY < 16 := above
  have bytes : display.depth / 8 = 4 := by
    rw [dense.depth]
    rfl
  have row : (y + BitVec.ofNat 32 fontY).toNat = y.toNat + fontY := by
    rw [BitVec.toNat_add, BitVec.toNat_ofNat, Nat.mod_eq_of_lt (by omega),
      Nat.mod_eq_of_lt (by omega)]
  have product : (y.toNat + fontY) * (4 * display.width.toNat) =
      4 * ((y.toNat + fontY) * display.width.toNat) := Nat.mul_left_comm _ _ _
  have four : (2 : Nat) ^ 32 = 4 * 2 ^ 30 := rfl
  have offset : ((y + BitVec.ofNat 32 fontY) * display.pitch / 4).toNat =
      (y.toNat + fontY) * display.width.toNat % 2 ^ 30 := by
    rw [BitVec.toNat_udiv, BitVec.toNat_mul, row, dense.pitch, product, four, Nat.mul_mod_mul_left]
    exact Nat.mul_div_cancel_left _ (by decide)
  rw [drawPixel]
  dsimp only
  rw [bytes, BitVec.toNat_add, offset, BitVec.toNat_add, BitVec.toNat_ofNat, Nat.mod_add_mod,
    Nat.mod_eq_of_lt (a := fontX) (by omega)]

theorem Dense.inBuffer_iff (dense : display.Dense) (color : BitVec 32) (high : y ≤ display.width)
    {fontX fontY : Nat} (inside : fontX < Font.width) (above : fontY < Font.charHeight) :
    display.InBuffer (display.drawPixel (x + BitVec.ofNat 32 fontX) (y + BitVec.ofNat 32 fontY) color) <->
      display.PixelInside x.toNat y.toNat fontX fontY := by
  rw [InBuffer, dense.index_toNat high inside above, PixelInside]
  split
  next straight =>
      rcases straight with ⟨fits, short⟩
      have narrow := dense.width_lt
      have shortX : fontX < 8 := inside
      have columns : x.toNat + 8 ≤ display.width.toNat := fits
      rw [Nat.mod_eq_of_lt short, Nat.mod_eq_of_lt (by omega),
        Nat.mul_comm display.width.toNat]
      constructor
      · intro before
        by_contra below
        have rows := Nat.mul_le_mul_right display.width.toNat (Nat.not_lt.mp below)
        omega
      · intro row
        have rows := Nat.mul_le_mul_right display.width.toNat (Nat.succ_le_of_lt row)
        rw [Nat.succ_mul] at rows
        omega
  next => exact Iff.rfl

/-- Every store of the call is in the buffer. -/
def StaysInside (display : Display) (string : List UInt8) (x y color : BitVec 32) : Prop :=
  forall write, write ∈ display.drawString string x y color -> display.InBuffer write

/-- All that can be seen of the characters that are drawn is above the lower edge. -/
def EndsAbove (display : Display) (string : List UInt8) (x y : BitVec 32) : Prop :=
  forall place, place ∈ places string 0 0 -> display.Drawn x y place ->
    forall fontX fontY, fontX < Font.width ->
      Font.characterHasVisiblePixel place.ch fontX fontY = true ->
        display.PixelInside (left x place.column).toNat (top y place.line).toNat fontX fontY

theorem endsAbove_of_staysInside {string : List UInt8} (dense : display.Dense)
    (stays : display.StaysInside string x y color) : display.EndsAbove string x y := by
  intro place member drawn fontX fontY inside visible
  apply (dense.inBuffer_iff color drawn.1 inside (Font.lt_of_visible visible)).mp
  apply stays
  rw [drawString_eq]
  refine List.mem_flatMap.mpr ⟨place, member, ?_⟩
  rw [drawPlace, if_pos drawn]
  exact mem_drawCharacter.mpr ⟨fontX, fontY, inside, visible, rfl⟩

theorem staysInside_of_endsAbove {string : List UInt8} (dense : display.Dense)
    (above : display.EndsAbove string x y) : display.StaysInside string x y color := by
  intro write member
  rw [drawString_eq] at member
  rcases List.mem_flatMap.mp member with ⟨place, there, stored⟩
  rw [drawPlace] at stored
  split at stored
  next drawn =>
      rcases mem_drawCharacter.mp stored with ⟨fontX, fontY, inside, visible, rfl⟩
      exact (dense.inBuffer_iff color drawn.1 inside (Font.lt_of_visible visible)).mpr
        (above place there drawn fontX fontY inside visible)
  next => cases stored

theorem places_column {string : List UInt8} {line column : Nat} {place : Place}
    (member : place ∈ places string line column) :
    place.column < column + string.length := by
  induction string generalizing line column with
  | nil => cases member
  | cons ch string inductionHypothesis =>
      rw [places] at member
      rw [List.length_cons]
      split at member
      · have bound := inductionHypothesis member
        omega
      · rcases List.mem_cons.mp member with same | later
        · rw [same]
          exact Nat.lt_add_of_pos_right (Nat.succ_pos _)
        · have bound := inductionHypothesis later
          omega

/-- The test of the lines is right for a display that is higher than wide by a character. -/
theorem staysInside_of_tall {string : List UInt8} (dense : display.Dense)
    (tall : display.width.toNat + Font.charHeight ≤ display.height.toNat)
    (narrow : display.width.toNat < 2 ^ 14)
    (short : x.toNat + (Font.width + 2) * string.length + Font.width < 2 ^ 32) :
    display.StaysInside string x y color := by
  apply staysInside_of_endsAbove dense
  intro place member drawn fontX fontY inside visible
  have above : fontY < 16 := Font.lt_of_visible visible
  have high := BitVec.le_def.mp drawn.1
  have behind := places_column member
  have lines : display.width.toNat + 16 ≤ display.height.toNat := tall
  have room : x.toNat + 10 * string.length + 8 < 2 ^ 32 := short
  have start : (left x place.column).toNat = x.toNat + 10 * place.column := by
    have shown : (BitVec.ofNat 32 (10 * place.column)).toNat = 10 * place.column := by
      rw [BitVec.toNat_ofNat, Nat.mod_eq_of_lt (by omega)]
    have sum : (left x place.column).toNat =
        (x.toNat + (BitVec.ofNat 32 (10 * place.column)).toNat) % 2 ^ 32 := BitVec.toNat_add _ _
    rw [sum, shown, Nat.mod_eq_of_lt (by omega)]
  have fits : (left x place.column).toNat + 8 ≤ display.width.toNat := by
    have test := BitVec.le_def.mp (drawn.2 place.column (Nat.le_refl _))
    rw [BitVec.toNat_add] at test
    have eight : (BitVec.ofNat 32 Font.width).toNat = 8 := rfl
    rw [eight, Nat.mod_eq_of_lt (by omega)] at test
    exact test
  have area : ((top y place.line).toNat + fontY) * display.width.toNat < 2 ^ 30 := by
    have rows : (top y place.line).toNat + fontY ≤ 2 ^ 14 + 16 := by omega
    have product := Nat.mul_le_mul rows (Nat.le_of_lt narrow)
    omega
  rw [PixelInside, if_pos ⟨fits, area⟩]
  omega

/-- A call stays inside just when it ends above the lower edge. -/
theorem stays_inside_iff {string : List UInt8} (dense : display.Dense) :
    display.StaysInside string x y color <-> display.EndsAbove string x y :=
  ⟨endsAbove_of_staysInside dense, staysInside_of_endsAbove dense⟩

/-- 640 by 480 pixels. -/
def wide : Display where
  width := 640
  height := 480
  depth := 32
  pitch := 2560

theorem wide_dense : wide.Dense :=
  ⟨rfl, rfl⟩

/-- A letter where the display file draws. -/
theorem stays_inside_iff_letter : wide.StaysInside [65] 20 20 0x21dd7f := by
  apply (stays_inside_iff wide_dense).mpr
  intro place member _ fontX fontY inside visible
  cases List.mem_singleton.mp member
  have high : fontY < 16 := Font.lt_of_visible visible
  have start : (left 20 0).toNat = 20 ∧ (top 20 0).toNat = 20 := ⟨rfl, rfl⟩
  have size : wide.width.toNat = 640 ∧ wide.height.toNat = 480 := ⟨rfl, rfl⟩
  rw [PixelInside, start.1, start.2, size.1, size.2, if_pos ⟨by decide, by omega⟩]
  omega

/-- A letter on the line below the last one of the display. -/
theorem letter_below_the_display : ¬ forall (display : Display) (string : List UInt8)
    (x y color : BitVec 32), display.Dense -> display.StaysInside string x y color := by
  intro always
  have stays := always wide (List.replicate 22 newline ++ [65]) 20 20 0x21dd7f wide_dense
  have outside : (wide.drawString (List.replicate 22 newline ++ [65]) 20 20 0x21dd7f).any
      (fun write => 640 * 480 ≤ write.index.toNat) = true := by
    decide +kernel
  rcases List.any_eq_true.mp outside with ⟨write, member, beyond⟩
  have inside : write.index.toNat < 640 * 480 := stays write member
  exact absurd (of_decide_eq_true beyond) (Nat.not_le.mpr inside)

end Display

end Kernel
end Pinyon
