/-!
# ASCII letters

* `Ascii.lower`   a text with its ASCII capitals made small; every other character stays, letters
                  beyond ASCII included;
* `Ascii.same`    whether two texts agree up to the case of ASCII letters.
-/

namespace Offload.Text.Ascii

def lowerChars (cs : List Char) : List Char := cs.map Char.toLower

def lower (s : String) : String := String.ofList (lowerChars s.toList)

def same (s t : String) : Bool := lowerChars s.toList == lowerChars t.toList

end Offload.Text.Ascii
