/-!
# Dmaplane.Lib.Numerals

`NeZero` for the sizes of small tables and sample types, by name and as `Fin` asks for it: a
definition with a numeral of `Fin 64` then holds no proof of its own.
-/

namespace Numerals

instance neZero_one : @NeZero Nat Zero.ofOfNat0 1 := Nat.instNeZeroSucc

instance neZero_two : @NeZero Nat Zero.ofOfNat0 2 := Nat.instNeZeroSucc

instance neZero_4 : @NeZero Nat Zero.ofOfNat0 4 := Nat.instNeZeroSucc

instance neZero_16 : @NeZero Nat Zero.ofOfNat0 16 := Nat.instNeZeroSucc

instance neZero_64 : @NeZero Nat Zero.ofOfNat0 64 := Nat.instNeZeroSucc

instance neZero_128 : @NeZero Nat Zero.ofOfNat0 128 := Nat.instNeZeroSucc

instance neZero_1024 : @NeZero Nat Zero.ofOfNat0 1024 := Nat.instNeZeroSucc

end Numerals
