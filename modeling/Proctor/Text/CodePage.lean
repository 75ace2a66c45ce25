/-!
# Code page 437

The characters of the bytes in code page 437, in which older archives give names. The lower half is
ASCII; the upper half has letters with accents, frames for tables, Greek letters and signs.
-/

namespace Proctor.CodePage

/-- The characters of the bytes from 0x80 on. -/
def upperHalf : String :=
  "ÇüéâäàåçêëèïîìÄÅÉæÆôöòûùÿÖÜ¢£¥₧ƒ" ++
  "áíóúñÑªº¿⌐¬½¼¡«»░▒▓│┤╡╢╖╕╣║╗╝╜╛┐" ++
  "└┴┬├─┼╞╟╚╔╩╦╠═╬╧╨╤╥╙╘╒╓╫╪┘┌█▄▌▐▀" ++
  "αßΓπΣσµτΦΘΩδ∞φε∩≡±≥≤⌠⌡÷≈°∙·√ⁿ²■\u00a0"

/-- The character of a byte. -/
def char (b : UInt8) : Char :=
  if b < 0x80 then Char.ofNat b.toNat
  else upperHalf.toList.getD (b.toNat - 0x80) (Char.ofNat b.toNat)

/-- The text that bytes stand for. -/
def decode (bytes : List UInt8) : List Char :=
  bytes.map char

end Proctor.CodePage
