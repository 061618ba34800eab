import RowStore.Number.Reading
import RowStore.Text.Quoted

/-!
# Faults of addresses

Why a text or a group of numbers is no address, and how that is worded.
-/

namespace RowStore

/-- The causes for which an address is refused. -/
inductive AddressFault
  | negativeColumn
  | notAColumn (text : Text)
  | notARange (text : Text)
  /-- The numeral of a row has more digits than one that is read may have. -/
  | numeralTooLong (digits : Nat)
  | beforeFirstCell
  | endBeforeStart
  deriving DecidableEq

namespace AddressFault

def message : AddressFault → String
  | negativeColumn => "Column position must be non-negative (0-indexed)"
  | notAColumn text => "Invalid column code: " ++ Text.quoted text
  | notARange text => "Invalid range notation: " ++ Text.quoted text
  | numeralTooLong digits =>
    "Exceeds the limit (" ++ toString longestNumeral ++ " digits) for integer string conversion: " ++
      "value has " ++ toString digits ++ " digits; use sys.set_int_max_str_digits() to increase the limit"
  | beforeFirstCell => "Row must be >= 1 and column must be >= 0"
  | endBeforeStart => "End coordinates must be >= start coordinates"

end AddressFault

end RowStore
