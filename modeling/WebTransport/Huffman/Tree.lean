import WebTransport.Huffman.Decoder

open rust rust.Outcome

namespace wt_proto.huffman

/-- The general table: all symbols come before all further tables. -/
def bits_decode (count : Nat) (syms : List UInt8) (subs : List HuffmanDecoder) : HuffmanDecoder :=
  { lookup := count, table := syms.map DecodeValue.Sym ++ subs.map DecodeValue.Partial }

/-- 2-final -/
def two_final (first second : UInt8) : HuffmanDecoder :=
  { lookup := 1, table := [.Sym first, .Sym second] }

/-- 4-final -/
def four_final (first second third fourth : UInt8) : HuffmanDecoder :=
  { lookup := 2, table := [.Sym first, .Sym second, .Sym third, .Sym fourth] }

/-- 2-final-partial -/
def two_final_partial (first : UInt8) (second : HuffmanDecoder) : HuffmanDecoder :=
  { lookup := 1, table := [.Sym first, .Partial second] }

/-- 2-partial -/
def two_partial (first second : HuffmanDecoder) : HuffmanDecoder :=
  { lookup := 1, table := [.Partial first, .Partial second] }

/-- 4-partial -/
def four_partial (first second third fourth : HuffmanDecoder) : HuffmanDecoder :=
  { lookup := 2, table := [.Partial first, .Partial second, .Partial third, .Partial fourth] }

/-- A byte literal of the source. Quotes, braces and the slashes are given by their codes. -/
private def b (c : Char) : UInt8 := c.toUInt8

-- The tables stand in the reverse order of the source: each one names only tables before it.

def END0_01010 : HuffmanDecoder := two_final 32 (b '%')
def END0_01011 : HuffmanDecoder := two_final 45 (b '.')
def END0_01100 : HuffmanDecoder := two_final 47 (b '3')
def END0_01101 : HuffmanDecoder := two_final (b '4') (b '5')
def END0_01110 : HuffmanDecoder := two_final (b '6') (b '7')
def END0_01111 : HuffmanDecoder := two_final (b '8') (b '9')
def END0_10000 : HuffmanDecoder := two_final (b '=') (b 'A')
def END0_10001 : HuffmanDecoder := two_final (b '_') (b 'b')
def END0_10010 : HuffmanDecoder := two_final (b 'd') (b 'f')
def END0_10011 : HuffmanDecoder := two_final (b 'g') (b 'h')
def END0_10100 : HuffmanDecoder := two_final (b 'l') (b 'm')
def END0_10101 : HuffmanDecoder := two_final (b 'n') (b 'p')
def END0_10110 : HuffmanDecoder := two_final (b 'r') (b 'u')
def END0_10111 : HuffmanDecoder := four_final (b ':') (b 'B') (b 'C') (b 'D')
def END0_11000 : HuffmanDecoder := four_final (b 'E') (b 'F') (b 'G') (b 'H')
def END0_11001 : HuffmanDecoder := four_final (b 'I') (b 'J') (b 'K') (b 'L')
def END0_11010 : HuffmanDecoder := four_final (b 'M') (b 'N') (b 'O') (b 'P')
def END0_11011 : HuffmanDecoder := four_final (b 'Q') (b 'R') (b 'S') (b 'T')
def END0_11100 : HuffmanDecoder := four_final (b 'U') (b 'V') (b 'W') (b 'Y')
def END0_11101 : HuffmanDecoder := four_final (b 'j') (b 'k') (b 'q') (b 'v')
def END0_11110 : HuffmanDecoder := four_final (b 'w') (b 'x') (b 'y') (b 'z')
def END5_00 : HuffmanDecoder := two_final (b '&') (b '*')
def END5_01 : HuffmanDecoder := two_final (b ',') 59
def END5_10 : HuffmanDecoder := two_final (b 'X') (b 'Z')
def END7_0 : HuffmanDecoder := four_final (b '!') 34 (b '(') (b ')')
def END9A_1 : HuffmanDecoder := two_final 39 (b '+')
def END8_0 : HuffmanDecoder := two_final_partial (b '?') END9A_1
def END9B_01 : HuffmanDecoder := two_final (b '#') (b '>')
def END9B_10 : HuffmanDecoder := four_final 0 (b '$') (b '@') (b '[')
def END13_10 : HuffmanDecoder := two_final (b '^') 125
def END14_0 : HuffmanDecoder := two_final (b '<') 96
def END19_0011 : HuffmanDecoder := two_final 128 130
def END19_0100 : HuffmanDecoder := two_final 131 162
def END19_0101 : HuffmanDecoder := two_final 184 194
def END19_0110 : HuffmanDecoder := two_final 224 226
def END19_0111 : HuffmanDecoder := four_final 153 161 167 172
def END19_1000 : HuffmanDecoder := four_final 176 177 179 209
def END19_1001 : HuffmanDecoder := four_final 216 217 227 229
def END19_1010_01 : HuffmanDecoder := two_final 129 132
def END19_1010_10 : HuffmanDecoder := two_final 133 134
def END19_1010_11 : HuffmanDecoder := two_final 136 146
def END19_1010 : HuffmanDecoder :=
  bits_decode 2 [230] [END19_1010_01, END19_1010_10, END19_1010_11]
def END19_1011 : HuffmanDecoder :=
  bits_decode 3 [154, 156, 160, 163, 164, 169, 170, 173] []
def END19_1100 : HuffmanDecoder :=
  bits_decode 3 [178, 181, 185, 186, 187, 189, 190, 196] []
def END23A_100 : HuffmanDecoder := two_final 1 135
def END23A_101 : HuffmanDecoder := two_final 137 138
def END23A_110 : HuffmanDecoder := two_final 139 140
def END23A_111 : HuffmanDecoder := two_final 141 143
def END19_1101 : HuffmanDecoder :=
  bits_decode 3 [198, 228, 232, 233] [END23A_100, END23A_101, END23A_110, END23A_111]
def END19_1110 : HuffmanDecoder :=
  bits_decode 4 [147, 149, 150, 151, 152, 155, 157, 158, 165, 166, 168, 174, 175, 180, 182, 183] []
def END23B_0101 : HuffmanDecoder := two_final 9 142
def END23B_0110 : HuffmanDecoder := two_final 144 145
def END23B_0111 : HuffmanDecoder := two_final 148 159
def END23B_1000 : HuffmanDecoder := two_final 171 206
def END23B_1001 : HuffmanDecoder := two_final 215 225
def END23B_1010 : HuffmanDecoder := two_final 236 237
def END23B_1011 : HuffmanDecoder := four_final 199 207 234 235
def END23B_1100 : HuffmanDecoder :=
  bits_decode 3 [192, 193, 200, 201, 202, 205, 210, 213] []
def END27A_111 : HuffmanDecoder := two_final 203 204
def END23B_1101 : HuffmanDecoder :=
  bits_decode 3 [218, 219, 238, 240, 242, 243, 255] [END27A_111]
def END23B_1110 : HuffmanDecoder :=
  bits_decode 4 [211, 212, 214, 221, 222, 223, 241, 244, 245, 246, 247, 248, 250, 251, 252, 253] []
def END27B_0001 : HuffmanDecoder := two_final 2 3
def END27B_0010 : HuffmanDecoder := two_final 4 5
def END27B_0011 : HuffmanDecoder := two_final 6 7
def END27B_0100 : HuffmanDecoder := two_final 8 11
def END27B_0101 : HuffmanDecoder := two_final 12 14
def END27B_0110 : HuffmanDecoder := two_final 15 16
def END27B_0111 : HuffmanDecoder := two_final 17 18
def END27B_1000 : HuffmanDecoder := two_final 19 20
def END27B_1001 : HuffmanDecoder := two_final 21 23
def END27B_1010 : HuffmanDecoder := two_final 24 25
def END27B_1011 : HuffmanDecoder := two_final 26 27
def END27B_1100 : HuffmanDecoder := two_final 28 29
def END27B_1101 : HuffmanDecoder := two_final 30 31
def END27B_1110 : HuffmanDecoder := two_final 127 220
def EOF : HuffmanDecoder :=
  bits_decode 8 [] []
def END31_1 : HuffmanDecoder :=
  bits_decode 2 [10, 13, 22] [EOF]
def END27B_1111 : HuffmanDecoder :=
  bits_decode 1 [249] [END31_1]
def END23B_1111 : HuffmanDecoder :=
  bits_decode 4 [254]
    [END27B_0001, END27B_0010, END27B_0011, END27B_0100, END27B_0101, END27B_0110, END27B_0111,
     END27B_1000, END27B_1001, END27B_1010, END27B_1011, END27B_1100, END27B_1101, END27B_1110,
     END27B_1111]
def END19_1111 : HuffmanDecoder :=
  bits_decode 4 [188, 191, 197, 231, 239]
    [END23B_0101, END23B_0110, END23B_0111, END23B_1000, END23B_1001, END23B_1010, END23B_1011,
     END23B_1100, END23B_1101, END23B_1110, END23B_1111]
def END15_1 : HuffmanDecoder :=
  bits_decode 4 [92, 195, 208]
    [END19_0011, END19_0100, END19_0101, END19_0110, END19_0111, END19_1000, END19_1001,
     END19_1010, END19_1011, END19_1100, END19_1101, END19_1110, END19_1111]
def END14_1 : HuffmanDecoder := two_final_partial 123 END15_1
def END13_11 : HuffmanDecoder := two_partial END14_0 END14_1
def END9B_11 : HuffmanDecoder :=
  bits_decode 2 [b ']', b '~'] [END13_10, END13_11]
def END8_1 : HuffmanDecoder :=
  bits_decode 2 [b '|'] [END9B_01, END9B_10, END9B_11]
def END7_1 : HuffmanDecoder := two_partial END8_0 END8_1
def END5_11 : HuffmanDecoder := two_partial END7_0 END7_1
def END0_11111 : HuffmanDecoder := four_partial END5_00 END5_01 END5_10 END5_11
def HPACK_STRING : HuffmanDecoder :=
  bits_decode 5 [b '0', b '1', b '2', b 'a', b 'c', b 'e', b 'i', b 'o', b 's', b 't']
    [END0_01010, END0_01011, END0_01100, END0_01101, END0_01110, END0_01111, END0_10000,
     END0_10001, END0_10010, END0_10011, END0_10100, END0_10101, END0_10110, END0_10111,
     END0_11000, END0_11001, END0_11010, END0_11011, END0_11100, END0_11101, END0_11110, END0_11111]

/-- The iterator over the decoded symbols of `content`. -/
structure DecodeIter where
  bit_pos : BitWindow
  content : List UInt8

/-- `none` ends the iteration; an error is the last item of it. -/
def DecodeIter.next (self : DecodeIter) : Outcome Error (Option UInt8 × DecodeIter) := do
  let (x, bit_pos) ← HPACK_STRING.decode_next self.bit_pos self.content
  ok (x, { self with bit_pos })

/-- The loop over the iterator, pushing each symbol and stopping at the first error. -/
def DecodeIter.collect : (fuel : Nat) → DecodeIter → List UInt8 → Outcome Error (List UInt8)
  | 0, _, _ => diverge
  | fuel + 1, iter, decoded => do
    let (byte, iter) ← iter.next
    match byte with
    | none => ok decoded
    | some byte => collect fuel iter (decoded ++ [byte])

/-- Decodes a whole payload. Every turn of the loop but the last consumes bits of it, so the
fuel is never used up. -/
def hpack_decode (content : List UInt8) : Outcome Error (List UInt8) :=
  DecodeIter.collect (8 * content.length + 1) { bit_pos := BitWindow.new, content } []

end wt_proto.huffman
