import Scriptlet.Text.Letter
import Scriptlet.Text.Mark
import Scriptlet.Text.Digit

/-!
# Printable characters

Letters, marks, numbers, punctuation and symbols, and of the separators the
plain space alone. The letters, nonspacing marks, digits and connectors have
tables of their own, so the table here holds the rest.
-/

namespace Scriptlet.Text

/-- The code points of spacing and enclosing marks, of numbers other than
digits, of punctuation other than connectors, and of symbols. -/
def symbolRanges : Ranges := #[
  (0x21, 0x2f), (0x3a, 0x40), (0x5b, 0x5e), (0x60, 0x60), (0x7b, 0x7e), (0xa1, 0xa9),
  (0xab, 0xac), (0xae, 0xb4), (0xb6, 0xb9), (0xbb, 0xbf), (0xd7, 0xd7), (0xf7, 0xf7),
  (0x2c2, 0x2c5), (0x2d2, 0x2df), (0x2e5, 0x2eb), (0x2ed, 0x2ed), (0x2ef, 0x2ff), (0x375, 0x375),
  (0x37e, 0x37e), (0x384, 0x385), (0x387, 0x387), (0x3f6, 0x3f6), (0x482, 0x482), (0x488, 0x489),
  (0x55a, 0x55f), (0x589, 0x58a), (0x58d, 0x58f), (0x5be, 0x5be), (0x5c0, 0x5c0), (0x5c3, 0x5c3),
  (0x5c6, 0x5c6), (0x5f3, 0x5f4), (0x606, 0x60f), (0x61b, 0x61b), (0x61d, 0x61f), (0x66a, 0x66d),
  (0x6d4, 0x6d4), (0x6de, 0x6de), (0x6e9, 0x6e9), (0x6fd, 0x6fe), (0x700, 0x70d), (0x7f6, 0x7f9),
  (0x7fe, 0x7ff), (0x830, 0x83e), (0x85e, 0x85e), (0x888, 0x888), (0x903, 0x903), (0x93b, 0x93b),
  (0x93e, 0x940), (0x949, 0x94c), (0x94e, 0x94f), (0x964, 0x965), (0x970, 0x970), (0x982, 0x983),
  (0x9be, 0x9c0), (0x9c7, 0x9c8), (0x9cb, 0x9cc), (0x9d7, 0x9d7), (0x9f2, 0x9fb), (0x9fd, 0x9fd),
  (0xa03, 0xa03), (0xa3e, 0xa40), (0xa76, 0xa76), (0xa83, 0xa83), (0xabe, 0xac0), (0xac9, 0xac9),
  (0xacb, 0xacc), (0xaf0, 0xaf1), (0xb02, 0xb03), (0xb3e, 0xb3e), (0xb40, 0xb40), (0xb47, 0xb48),
  (0xb4b, 0xb4c), (0xb57, 0xb57), (0xb70, 0xb70), (0xb72, 0xb77), (0xbbe, 0xbbf), (0xbc1, 0xbc2),
  (0xbc6, 0xbc8), (0xbca, 0xbcc), (0xbd7, 0xbd7), (0xbf0, 0xbfa), (0xc01, 0xc03), (0xc41, 0xc44),
  (0xc77, 0xc7f), (0xc82, 0xc84), (0xcbe, 0xcbe), (0xcc0, 0xcc4), (0xcc7, 0xcc8), (0xcca, 0xccb),
  (0xcd5, 0xcd6), (0xcf3, 0xcf3), (0xd02, 0xd03), (0xd3e, 0xd40), (0xd46, 0xd48), (0xd4a, 0xd4c),
  (0xd4f, 0xd4f), (0xd57, 0xd5e), (0xd70, 0xd79), (0xd82, 0xd83), (0xdcf, 0xdd1), (0xdd8, 0xddf),
  (0xdf2, 0xdf4), (0xe3f, 0xe3f), (0xe4f, 0xe4f), (0xe5a, 0xe5b), (0xf01, 0xf17), (0xf1a, 0xf1f),
  (0xf2a, 0xf34), (0xf36, 0xf36), (0xf38, 0xf38), (0xf3a, 0xf3f), (0xf7f, 0xf7f), (0xf85, 0xf85),
  (0xfbe, 0xfc5), (0xfc7, 0xfcc), (0xfce, 0xfda), (0x102b, 0x102c), (0x1031, 0x1031),
  (0x1038, 0x1038), (0x103b, 0x103c), (0x104a, 0x104f), (0x1056, 0x1057), (0x1062, 0x1064),
  (0x1067, 0x106d), (0x1083, 0x1084), (0x1087, 0x108c), (0x108f, 0x108f), (0x109a, 0x109c),
  (0x109e, 0x109f), (0x10fb, 0x10fb), (0x1360, 0x137c), (0x1390, 0x1399), (0x1400, 0x1400),
  (0x166d, 0x166e), (0x169b, 0x169c), (0x16eb, 0x16f0), (0x1715, 0x1715), (0x1734, 0x1736),
  (0x17b6, 0x17b6), (0x17be, 0x17c5), (0x17c7, 0x17c8), (0x17d4, 0x17d6), (0x17d8, 0x17db),
  (0x17f0, 0x17f9), (0x1800, 0x180a), (0x1923, 0x1926), (0x1929, 0x192b), (0x1930, 0x1931),
  (0x1933, 0x1938), (0x1940, 0x1940), (0x1944, 0x1945), (0x19da, 0x19da), (0x19de, 0x19ff),
  (0x1a19, 0x1a1a), (0x1a1e, 0x1a1f), (0x1a55, 0x1a55), (0x1a57, 0x1a57), (0x1a61, 0x1a61),
  (0x1a63, 0x1a64), (0x1a6d, 0x1a72), (0x1aa0, 0x1aa6), (0x1aa8, 0x1aad), (0x1abe, 0x1abe),
  (0x1b04, 0x1b04), (0x1b35, 0x1b35), (0x1b3b, 0x1b3b), (0x1b3d, 0x1b41), (0x1b43, 0x1b44),
  (0x1b4e, 0x1b4f), (0x1b5a, 0x1b6a), (0x1b74, 0x1b7f), (0x1b82, 0x1b82), (0x1ba1, 0x1ba1),
  (0x1ba6, 0x1ba7), (0x1baa, 0x1baa), (0x1be7, 0x1be7), (0x1bea, 0x1bec), (0x1bee, 0x1bee),
  (0x1bf2, 0x1bf3), (0x1bfc, 0x1bff), (0x1c24, 0x1c2b), (0x1c34, 0x1c35), (0x1c3b, 0x1c3f),
  (0x1c7e, 0x1c7f), (0x1cc0, 0x1cc7), (0x1cd3, 0x1cd3), (0x1ce1, 0x1ce1), (0x1cf7, 0x1cf7),
  (0x1fbd, 0x1fbd), (0x1fbf, 0x1fc1), (0x1fcd, 0x1fcf), (0x1fdd, 0x1fdf), (0x1fed, 0x1fef),
  (0x1ffd, 0x1ffe), (0x2010, 0x2027), (0x2030, 0x203e), (0x2041, 0x2053), (0x2055, 0x205e),
  (0x2070, 0x2070), (0x2074, 0x207e), (0x2080, 0x208e), (0x20a0, 0x20c1), (0x20dd, 0x20e0),
  (0x20e2, 0x20e4), (0x2100, 0x2101), (0x2103, 0x2106), (0x2108, 0x2109), (0x2114, 0x2114),
  (0x2116, 0x2118), (0x211e, 0x2123), (0x2125, 0x2125), (0x2127, 0x2127), (0x2129, 0x2129),
  (0x212e, 0x212e), (0x213a, 0x213b), (0x2140, 0x2144), (0x214a, 0x214d), (0x214f, 0x2182),
  (0x2185, 0x218b), (0x2190, 0x2429), (0x2440, 0x244a), (0x2460, 0x2b73), (0x2b76, 0x2bff),
  (0x2ce5, 0x2cea), (0x2cf9, 0x2cff), (0x2d70, 0x2d70), (0x2e00, 0x2e2e), (0x2e30, 0x2e5d),
  (0x2e80, 0x2e99), (0x2e9b, 0x2ef3), (0x2f00, 0x2fd5), (0x2ff0, 0x2fff), (0x3001, 0x3004),
  (0x3007, 0x3029), (0x302e, 0x3030), (0x3036, 0x303a), (0x303d, 0x303f), (0x309b, 0x309c),
  (0x30a0, 0x30a0), (0x30fb, 0x30fb), (0x3190, 0x319f), (0x31c0, 0x31e5), (0x31ef, 0x31ef),
  (0x3200, 0x321e), (0x3220, 0x33ff), (0x4dc0, 0x4dff), (0xa490, 0xa4c6), (0xa4fe, 0xa4ff),
  (0xa60d, 0xa60f), (0xa670, 0xa673), (0xa67e, 0xa67e), (0xa6e6, 0xa6ef), (0xa6f2, 0xa6f7),
  (0xa700, 0xa716), (0xa720, 0xa721), (0xa789, 0xa78a), (0xa823, 0xa824), (0xa827, 0xa82b),
  (0xa830, 0xa839), (0xa874, 0xa877), (0xa880, 0xa881), (0xa8b4, 0xa8c3), (0xa8ce, 0xa8cf),
  (0xa8f8, 0xa8fa), (0xa8fc, 0xa8fc), (0xa92e, 0xa92f), (0xa952, 0xa953), (0xa95f, 0xa95f),
  (0xa983, 0xa983), (0xa9b4, 0xa9b5), (0xa9ba, 0xa9bb), (0xa9be, 0xa9cd), (0xa9de, 0xa9df),
  (0xaa2f, 0xaa30), (0xaa33, 0xaa34), (0xaa4d, 0xaa4d), (0xaa5c, 0xaa5f), (0xaa77, 0xaa79),
  (0xaa7b, 0xaa7b), (0xaa7d, 0xaa7d), (0xaade, 0xaadf), (0xaaeb, 0xaaeb), (0xaaee, 0xaaf1),
  (0xaaf5, 0xaaf5), (0xab5b, 0xab5b), (0xab6a, 0xab6b), (0xabe3, 0xabe4), (0xabe6, 0xabe7),
  (0xabe9, 0xabec), (0xfb29, 0xfb29), (0xfbb2, 0xfbd2), (0xfd3e, 0xfd4f), (0xfd90, 0xfd91),
  (0xfdc8, 0xfdcf), (0xfdfc, 0xfdff), (0xfe10, 0xfe19), (0xfe30, 0xfe32), (0xfe35, 0xfe4c),
  (0xfe50, 0xfe52), (0xfe54, 0xfe66), (0xfe68, 0xfe6b), (0xff01, 0xff0f), (0xff1a, 0xff20),
  (0xff3b, 0xff3e), (0xff40, 0xff40), (0xff5b, 0xff65), (0xffe0, 0xffe6), (0xffe8, 0xffee),
  (0xfffc, 0xfffd), (0x10100, 0x10102), (0x10107, 0x10133), (0x10137, 0x1018e),
  (0x10190, 0x1019c), (0x101a0, 0x101a0), (0x101d0, 0x101fc), (0x102e1, 0x102fb),
  (0x10320, 0x10323), (0x10341, 0x10341), (0x1034a, 0x1034a), (0x1039f, 0x1039f),
  (0x103d0, 0x103d5), (0x1056f, 0x1056f), (0x10857, 0x1085f), (0x10877, 0x1087f),
  (0x108a7, 0x108af), (0x108fb, 0x108ff), (0x10916, 0x1091b), (0x1091f, 0x1091f),
  (0x1093f, 0x1093f), (0x109bc, 0x109bd), (0x109c0, 0x109cf), (0x109d2, 0x109ff),
  (0x10a40, 0x10a48), (0x10a50, 0x10a58), (0x10a7d, 0x10a7f), (0x10a9d, 0x10a9f),
  (0x10ac8, 0x10ac8), (0x10aeb, 0x10af6), (0x10b39, 0x10b3f), (0x10b58, 0x10b5f),
  (0x10b78, 0x10b7f), (0x10b99, 0x10b9c), (0x10ba9, 0x10baf), (0x10cfa, 0x10cff),
  (0x10d6e, 0x10d6e), (0x10d8e, 0x10d8f), (0x10e60, 0x10e7e), (0x10ead, 0x10ead),
  (0x10ed0, 0x10ed8), (0x10f1d, 0x10f26), (0x10f51, 0x10f59), (0x10f86, 0x10f89),
  (0x10fc5, 0x10fcb), (0x11000, 0x11000), (0x11002, 0x11002), (0x11047, 0x1104d),
  (0x11052, 0x11065), (0x11082, 0x11082), (0x110b0, 0x110b2), (0x110b7, 0x110b8),
  (0x110bb, 0x110bc), (0x110be, 0x110c1), (0x1112c, 0x1112c), (0x11140, 0x11143),
  (0x11145, 0x11146), (0x11174, 0x11175), (0x11182, 0x11182), (0x111b3, 0x111b5),
  (0x111bf, 0x111c0), (0x111c5, 0x111c8), (0x111cd, 0x111ce), (0x111db, 0x111db),
  (0x111dd, 0x111df), (0x111e1, 0x111f4), (0x1122c, 0x1122e), (0x11232, 0x11233),
  (0x11235, 0x11235), (0x11238, 0x1123d), (0x112a9, 0x112a9), (0x112e0, 0x112e2),
  (0x11302, 0x11303), (0x1133e, 0x1133f), (0x11341, 0x11344), (0x11347, 0x11348),
  (0x1134b, 0x1134d), (0x11357, 0x11357), (0x11362, 0x11363), (0x113b8, 0x113ba),
  (0x113c2, 0x113c2), (0x113c5, 0x113c5), (0x113c7, 0x113ca), (0x113cc, 0x113cd),
  (0x113cf, 0x113cf), (0x113d4, 0x113d5), (0x113d7, 0x113d8), (0x11435, 0x11437),
  (0x11440, 0x11441), (0x11445, 0x11445), (0x1144b, 0x1144f), (0x1145a, 0x1145b),
  (0x1145d, 0x1145d), (0x114b0, 0x114b2), (0x114b9, 0x114b9), (0x114bb, 0x114be),
  (0x114c1, 0x114c1), (0x114c6, 0x114c6), (0x115af, 0x115b1), (0x115b8, 0x115bb),
  (0x115be, 0x115be), (0x115c1, 0x115d7), (0x11630, 0x11632), (0x1163b, 0x1163c),
  (0x1163e, 0x1163e), (0x11641, 0x11643), (0x11660, 0x1166c), (0x116ac, 0x116ac),
  (0x116ae, 0x116af), (0x116b6, 0x116b6), (0x116b9, 0x116b9), (0x1171e, 0x1171e),
  (0x11720, 0x11721), (0x11726, 0x11726), (0x1173a, 0x1173f), (0x1182c, 0x1182e),
  (0x11838, 0x11838), (0x1183b, 0x1183b), (0x118ea, 0x118f2), (0x11930, 0x11935),
  (0x11937, 0x11938), (0x1193d, 0x1193d), (0x11940, 0x11940), (0x11942, 0x11942),
  (0x11944, 0x11946), (0x119d1, 0x119d3), (0x119dc, 0x119df), (0x119e2, 0x119e2),
  (0x119e4, 0x119e4), (0x11a39, 0x11a39), (0x11a3f, 0x11a46), (0x11a57, 0x11a58),
  (0x11a97, 0x11a97), (0x11a9a, 0x11a9c), (0x11a9e, 0x11aa2), (0x11b00, 0x11b09),
  (0x11b61, 0x11b61), (0x11b65, 0x11b65), (0x11b67, 0x11b67), (0x11be1, 0x11be1),
  (0x11c2f, 0x11c2f), (0x11c3e, 0x11c3e), (0x11c41, 0x11c45), (0x11c5a, 0x11c6c),
  (0x11c70, 0x11c71), (0x11ca9, 0x11ca9), (0x11cb1, 0x11cb1), (0x11cb4, 0x11cb4),
  (0x11d8a, 0x11d8e), (0x11d93, 0x11d94), (0x11d96, 0x11d96), (0x11ef5, 0x11ef8),
  (0x11f03, 0x11f03), (0x11f34, 0x11f35), (0x11f3e, 0x11f3f), (0x11f41, 0x11f41),
  (0x11f43, 0x11f4f), (0x11fc0, 0x11ff1), (0x11fff, 0x11fff), (0x12400, 0x1246e),
  (0x12470, 0x12474), (0x12ff1, 0x12ff2), (0x1612a, 0x1612c), (0x16a6e, 0x16a6f),
  (0x16af5, 0x16af5), (0x16b37, 0x16b3f), (0x16b44, 0x16b45), (0x16b5b, 0x16b61),
  (0x16d6d, 0x16d6f), (0x16e80, 0x16e9a), (0x16f51, 0x16f87), (0x16fe2, 0x16fe2),
  (0x16ff0, 0x16ff1), (0x16ff4, 0x16ff6), (0x1bc9c, 0x1bc9c), (0x1bc9f, 0x1bc9f),
  (0x1cc00, 0x1ccef), (0x1ccfa, 0x1ccfc), (0x1cd00, 0x1ceb3), (0x1ceba, 0x1ced0),
  (0x1cee0, 0x1cef0), (0x1cf50, 0x1cfc3), (0x1d000, 0x1d0f5), (0x1d100, 0x1d126),
  (0x1d129, 0x1d166), (0x1d16a, 0x1d172), (0x1d183, 0x1d184), (0x1d18c, 0x1d1a9),
  (0x1d1ae, 0x1d1ea), (0x1d200, 0x1d241), (0x1d245, 0x1d245), (0x1d2c0, 0x1d2d3),
  (0x1d2e0, 0x1d2f3), (0x1d300, 0x1d356), (0x1d360, 0x1d378), (0x1d6c1, 0x1d6c1),
  (0x1d6db, 0x1d6db), (0x1d6fb, 0x1d6fb), (0x1d715, 0x1d715), (0x1d735, 0x1d735),
  (0x1d74f, 0x1d74f), (0x1d76f, 0x1d76f), (0x1d789, 0x1d789), (0x1d7a9, 0x1d7a9),
  (0x1d7c3, 0x1d7c3), (0x1d800, 0x1d9ff), (0x1da37, 0x1da3a), (0x1da6d, 0x1da74),
  (0x1da76, 0x1da83), (0x1da85, 0x1da8b), (0x1e14f, 0x1e14f), (0x1e2ff, 0x1e2ff),
  (0x1e5ff, 0x1e5ff), (0x1e8c7, 0x1e8cf), (0x1e95e, 0x1e95f), (0x1ec71, 0x1ecb4),
  (0x1ed01, 0x1ed3d), (0x1eef0, 0x1eef1), (0x1f000, 0x1f02b), (0x1f030, 0x1f093),
  (0x1f0a0, 0x1f0ae), (0x1f0b1, 0x1f0bf), (0x1f0c1, 0x1f0cf), (0x1f0d1, 0x1f0f5),
  (0x1f100, 0x1f1ad), (0x1f1e6, 0x1f202), (0x1f210, 0x1f23b), (0x1f240, 0x1f248),
  (0x1f250, 0x1f251), (0x1f260, 0x1f265), (0x1f300, 0x1f6d8), (0x1f6dc, 0x1f6ec),
  (0x1f6f0, 0x1f6fc), (0x1f700, 0x1f7d9), (0x1f7e0, 0x1f7eb), (0x1f7f0, 0x1f7f0),
  (0x1f800, 0x1f80b), (0x1f810, 0x1f847), (0x1f850, 0x1f859), (0x1f860, 0x1f887),
  (0x1f890, 0x1f8ad), (0x1f8b0, 0x1f8bb), (0x1f8c0, 0x1f8c1), (0x1f8d0, 0x1f8d8),
  (0x1f900, 0x1fa57), (0x1fa60, 0x1fa6d), (0x1fa70, 0x1fa7c), (0x1fa80, 0x1fa8a),
  (0x1fa8e, 0x1fac6), (0x1fac8, 0x1fac8), (0x1facd, 0x1fadc), (0x1fadf, 0x1faea),
  (0x1faef, 0x1faf8), (0x1fb00, 0x1fb92), (0x1fb94, 0x1fbef), (0x1fbfa, 0x1fbfa)]

/-- Whether `c` is shown as itself in quoted text. -/
def isPrintable (c : Char) : Bool :=
  c == ' ' || isLetter c || isMark c || isDigit c || isConnector c || symbolRanges.covers c

end Scriptlet.Text
