namespace Pinyon
namespace Kernel

/-!
# The font

The rows of a character are given from the top.  Below them the font leaves some
padding, and none of the characters up to the blank has anything to see.
-/

namespace Font

/-- `width`. -/
def width : Nat := 8

/-- `char_height`. -/
def charHeight : Nat := 16

/-- `padding`. -/
def padding : Nat := 3

/-- `height`. -/
def height : Nat := charHeight + padding

/-- The rows of each character in `data`, one byte for each of them. -/
def glyphs : List Nat :=
  [ 0x0000183C3C3C18181800181800000000, 0x00666666240000000000000000000000,
    0x0000006C6CFE6C6C6CFE6C6C00000000, 0x0010107CD6D0D07C1616D67C10100000,
    0x00000000C2C60C183060C68600000000, 0x0000386C6C3876DCCCCCCC7600000000,
    0x00181818300000000000000000000000, 0x00000C18303030303030180C00000000,
    0x000030180C0C0C0C0C0C183000000000, 0x0000000000663CFF3C66000000000000,
    0x000000000018187E1818000000000000, 0x00000000000000000018181830000000,
    0x00000000000000FE0000000000000000, 0x00000000000000000000181800000000,
    0x0000000000060C183060C00000000000, 0x00007CC6CECED6D6E6E6C67C00000000,
    0x00001838781818181818187E00000000, 0x00007CC6060C183060C0C6FE00000000,
    0x00007CC606063C060606C67C00000000, 0x00000C1C3C6CCCFE0C0C0C1E00000000,
    0x0000FEC0C0C0FC060606C67C00000000, 0x00003860C0C0FCC6C6C6C67C00000000,
    0x0000FEC606060C183030303000000000, 0x00007CC6C6C67CC6C6C6C67C00000000,
    0x00007CC6C6C67E0606060C7800000000, 0x00000000181800000018180000000000,
    0x00000000181800000018183000000000, 0x000000060C18306030180C0600000000,
    0x0000000000FE0000FE00000000000000, 0x0000006030180C060C18306000000000,
    0x00007CC6C60C18181800181800000000, 0x00007CC6C6C6DEDEDEDCC07C00000000,
    0x000010386CC6C6FEC6C6C6C600000000, 0x0000FC6666667C66666666FC00000000,
    0x00003C66C2C0C0C0C0C2663C00000000, 0x0000F86C6666666666666CF800000000,
    0x0000FE6662687868606266FE00000000, 0x0000FE6662687868606060F000000000,
    0x00003C66C2C0C0DEC6C6663A00000000, 0x0000C6C6C6C6FEC6C6C6C6C600000000,
    0x00003C18181818181818183C00000000, 0x00001E0C0C0C0C0CCCCCCC7800000000,
    0x0000E666666C78786C6666E600000000, 0x0000F06060606060606266FE00000000,
    0x0000C6EEFEFED6C6C6C6C6C600000000, 0x0000C6E6F6FEDECEC6C6C6C600000000,
    0x00007CC6C6C6C6C6C6C6C67C00000000, 0x0000FC6666667C60606060F000000000,
    0x00007CC6C6C6C6C6C6D6DE7C0C0E0000, 0x0000FC6666667C6C666666E600000000,
    0x00007CC6C664380C06C6C67C00000000, 0x00007E7E5A1818181818183C00000000,
    0x0000C6C6C6C6C6C6C6C6C67C00000000, 0x0000C6C6C6C6C6C6C66C381000000000,
    0x0000C6C6C6C6D6D6D6FEEE6C00000000, 0x0000C6C66C7C38387C6CC6C600000000,
    0x0000666666663C181818183C00000000, 0x0000FEC6860C183060C2C6FE00000000,
    0x00003C30303030303030303C00000000, 0x0000000000C06030180C060000000000,
    0x00003C0C0C0C0C0C0C0C0C3C00000000, 0x10386CC6000000000000000000000000,
    0x0000000000000000000000000000FF00, 0x00303030180000000000000000000000,
    0x0000000000780C7CCCCCCC7600000000, 0x0000E06060786C666666667C00000000,
    0x00000000007CC6C0C0C0C67C00000000, 0x00001C0C0C3C6CCCCCCCCC7600000000,
    0x00000000007CC6FEC0C0C67C00000000, 0x0000386C6460F060606060F000000000,
    0x000000000076CCCCCCCCCC7C0CCC7800, 0x0000E060606C7666666666E600000000,
    0x00001818003818181818183C00000000, 0x00000606000E06060606060666663C00,
    0x0000E06060666C78786C66E600000000, 0x00003818181818181818183C00000000,
    0x0000000000ECFED6D6D6D6C600000000, 0x0000000000DC66666666666600000000,
    0x00000000007CC6C6C6C6C67C00000000, 0x0000000000DC66666666667C6060F000,
    0x000000000076CCCCCCCCCC7C0C0C1E00, 0x0000000000DC7666606060F000000000,
    0x00000000007CC660380CC67C00000000, 0x0000103030FC30303030361C00000000,
    0x0000000000CCCCCCCCCCCC7600000000, 0x000000000066666666663C1800000000,
    0x0000000000C6C6D6D6D6FE6C00000000, 0x0000000000C66C3838386CC600000000,
    0x0000000000C6C6C6C6C6C67E060CF800, 0x0000000000FECC183060C6FE00000000,
    0x00000E18181870181818180E00000000, 0x00001818181818181818181800000000,
    0x0000701818180E181818187000000000, 0x000076DC000000000000000000000000,
    0x00007EC39999F3E7E7FFE7E77E000000, 0x00007EC39999F3E7E7FFE7E77E000000,
    0x00007EC39999F3E7E7FFE7E77E000000, 0x00007EC39999F3E7E7FFE7E77E000000,
    0x00007EC39999F3E7E7FFE7E77E000000, 0x00007EC39999F3E7E7FFE7E77E000000,
    0x00007EC39999F3E7E7FFE7E77E000000, 0x00007EC39999F3E7E7FFE7E77E000000,
    0x00007EC39999F3E7E7FFE7E77E000000, 0x00007EC39999F3E7E7FFE7E77E000000,
    0x00007EC39999F3E7E7FFE7E77E000000, 0x00007EC39999F3E7E7FFE7E77E000000,
    0x00007EC39999F3E7E7FFE7E77E000000, 0x00007EC39999F3E7E7FFE7E77E000000,
    0x00007EC39999F3E7E7FFE7E77E000000, 0x00007EC39999F3E7E7FFE7E77E000000,
    0x00007EC39999F3E7E7FFE7E77E000000, 0x00007EC39999F3E7E7FFE7E77E000000,
    0x00007EC39999F3E7E7FFE7E77E000000, 0x00007EC39999F3E7E7FFE7E77E000000,
    0x00007EC39999F3E7E7FFE7E77E000000, 0x00007EC39999F3E7E7FFE7E77E000000,
    0x00007EC39999F3E7E7FFE7E77E000000, 0x00007EC39999F3E7E7FFE7E77E000000,
    0x00007EC39999F3E7E7FFE7E77E000000, 0x00007EC39999F3E7E7FFE7E77E000000,
    0x00007EC39999F3E7E7FFE7E77E000000, 0x00007EC39999F3E7E7FFE7E77E000000,
    0x00007EC39999F3E7E7FFE7E77E000000, 0x00007EC39999F3E7E7FFE7E77E000000,
    0x00007EC39999F3E7E7FFE7E77E000000, 0x00007EC39999F3E7E7FFE7E77E000000,
    0x00007EC39999F3E7E7FFE7E77E000000, 0x0000000000000000000082FE00000000,
    0x000000001818001818183C3C3C180000, 0x00000000107CD6D0D0D0D67C10000000,
    0x0000386C6060F0606066F66C00000000, 0x00000000C67C6C6C7CC6000000000000,
    0x000066663C187E187E18181800000000, 0x00001818181800181818181800000000,
    0x007CC660386CC6C66C380CC67C000000, 0x006C6C00000000000000000000000000,
    0x00003C4299A5A1A599423C0000000000, 0x00003C6C6C3E007E0000000000000000,
    0x0000000000366CD86C36000000000000, 0x000000000000FE060606060000000000,
    0x000000000000007E0000000000000000, 0x00003C42B9A5B9A5A5423C0000000000,
    0xFF000000000000000000000000000000, 0x00386C6C380000000000000000000000,
    0x000000000018187E1818007E00000000, 0x386C18307C0000000000000000000000,
    0x386C186C380000000000000000000000, 0x00183060000000000000000000000000,
    0x0000000000CCCCCCCCCCCCF6C0C0C000, 0x00007FD6D67636363636363600000000,
    0x00000000000018180000000000000000, 0x000000000000000000000000186C3800,
    0x30703030780000000000000000000000, 0x0000386C6C38007C0000000000000000,
    0x0000000000D86C366CD8000000000000, 0x60E06060F60C183066CE1A3F06060000,
    0x60E06060F60C18306EDB060C1F000000, 0x70D830D8760C183066CE1A3F06060000,
    0x0000000030300030303060C6C67C0000, 0x603000386CC6C6FEC6C6C6C600000000,
    0x0C1800386CC6C6FEC6C6C6C600000000, 0x10386C00386CC6C6FEC6C6C600000000,
    0x76DC00386CC6C6FEC6C6C6C600000000, 0x006C00386CC6C6FEC6C6C6C600000000,
    0x386C3800386CC6C6FEC6C6C600000000, 0x00003E78D8D8FCD8D8D8D8DE00000000,
    0x00003C66C2C0C0C0C0C2663C0C663C00, 0x603000FE6660607C606066FE00000000,
    0x0C1800FE6660607C606066FE00000000, 0x10386C00FE66607C606066FE00000000,
    0x006C00FE6660607C606066FE00000000, 0x6030003C181818181818183C08000000,
    0x060C003C181818181818183C00000000, 0x183C66003C1818181818183C00000000,
    0x0066003C181818181818183C00000000, 0x0000F86C6666F66666666CF800000000,
    0x76DC00C6E6F6FEDECEC6C6C600000000, 0x6030007CC6C6C6C6C6C6C67C00000000,
    0x0C18007CC6C6C6C6C6C6C67C00000000, 0x10386C007CC6C6C6C6C6C67C00000000,
    0x76DC007CC6C6C6C6C6C6C67C00000000, 0x006C007CC6C6C6C6C6C6C67C00000000,
    0x0000000000663C183C66000000000000, 0x00007EC6CECEDEF6E6E6C6FC00000000,
    0x603000C6C6C6C6C6C6C6C67C00000000, 0x0C1800C6C6C6C6C6C6C6C67C00000000,
    0x10386C00C6C6C6C6C6C6C67C00000000, 0x006C00C6C6C6C6C6C6C6C67C00000000,
    0x060C00666666663C1818183C00000000, 0x0000F0607C666666667C60F000000000,
    0x00007CC6C6C6CCC6C6C6D6DC80000000, 0x0060301800780C7CCCCCCC7600000000,
    0x0018306000780C7CCCCCCC7600000000, 0x0010386C00780C7CCCCCCC7600000000,
    0x000076DC00780C7CCCCCCC7600000000, 0x0000006C00780C7CCCCCCC7600000000,
    0x00386C3800780C7CCCCCCC7600000000, 0x00000000007EDB1B7FD8DB7E00000000,
    0x00000000007CC6C0C0C0C67C186C3800, 0x00603018007CC6FEC0C0C67C00000000,
    0x000C1830007CC6FEC0C0C67C00000000, 0x0010386C007CC6FEC0C0C67C00000000,
    0x0000006C007CC6FEC0C0C67C00000000, 0x00603018003818181818183C00000000,
    0x000C1830003818181818183C00000000, 0x00183C66003818181818183C00000000,
    0x0000006C003818181818183C00000000, 0x007830780C7EC6C6C6C6C67C00000000,
    0x000076DC00DC66666666666600000000, 0x00603018007CC6C6C6C6C67C00000000,
    0x000C1830007CC6C6C6C6C67C00000000, 0x0010386C007CC6C6C6C6C67C00000000,
    0x000076DC007CC6C6C6C6C67C00000000, 0x0000006C007CC6C6C6C6C67C00000000,
    0x000000000018007E0018000000000000, 0x00000000007ECEDEFEF6E6FC00000000,
    0x0060301800CCCCCCCCCCCC7600000000, 0x0018306000CCCCCCCCCCCC7600000000,
    0x003078CC00CCCCCCCCCCCC7600000000, 0x000000CC00CCCCCCCCCCCC7600000000,
    0x000C183000C6C6C6C6C6C67E060CF800, 0x0000F060607C666666667C6060F00000,
    0x0000006C00C6C6C6C6C6C67E060CF800 ]

/-- A row in `data`, whose last character is all zero. -/
def data (chIndex y : Nat) : Nat :=
  glyphs.getD chIndex 0 >>> (8 * (charHeight - 1 - y)) % 256

/-- `start_ch`. -/
def startCh : UInt8 := 0x21

/-- `character_has_visible_pixel`. -/
def characterHasVisiblePixel (ch : UInt8) (x y : Nat) : Bool :=
  if ch < startCh then false
  else if charHeight ≤ y then false
  else data (ch - startCh).toNat y &&& 0x80 >>> x ≠ 0

theorem lt_of_visible {ch : UInt8} {x y : Nat} (visible : characterHasVisiblePixel ch x y = true) :
    y < charHeight := by
  rw [characterHasVisiblePixel] at visible
  split at visible
  · cases visible
  · split at visible
    · cases visible
    next above => exact Nat.lt_of_not_le above

end Font

end Kernel
end Pinyon
