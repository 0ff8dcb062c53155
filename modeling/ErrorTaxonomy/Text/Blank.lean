/-!
# Blank text

The characters that count as white space in any script.  A definition file that
holds nothing else declares nothing.
-/

namespace ErrorTaxonomy

def isBlankChar (c : Char) : Bool :=
  (0x9 ≤ c.toNat && c.toNat ≤ 0xD) || c.toNat = 0x20 || c.toNat = 0x85 ||
    c.toNat = 0xA0 || c.toNat = 0x1680 ||
    (0x2000 ≤ c.toNat && c.toNat ≤ 0x200A) || c.toNat = 0x2028 ||
    c.toNat = 0x2029 || c.toNat = 0x202F || c.toNat = 0x205F || c.toNat = 0x3000

def isBlankText (text : String) : Bool :=
  text.toList.all isBlankChar

end ErrorTaxonomy
