/-
**The catalogue of opcodes.**

One row per assigned code, in the order of the codes. The codes that have no row are unknown.

* `Opcode.ofCode?` and `Opcode.ofMnemonic?` find a row; mnemonics are compared without regard to the
  case of ASCII letters.
* `Opcode.longTwin?` and `Opcode.shortTwin?` are the same branch in the other width, `Opcode.family`
  its short form, and `Opcode.reversed?` the jump of the same width in the other direction.
-/

import SceneScript.Opcode

namespace SceneScript.Opcode

open Shape

/-! ### The rows -/

/-- An opcode that goes on to the next instruction. -/
def plain (code : UInt8) (mnemonic : String) (shapes : List Shape) : Opcode :=
  { code, mnemonic, shapes }

/-- A request to a script of another group. -/
def calling (code : UInt8) (mnemonic : String) : Opcode :=
  { code, mnemonic, shapes := [uint8, uint8], flow := .call, flags := .exec }

/-- An opcode that ends the script. -/
def returning (code : UInt8) (mnemonic : String) (shapes : List Shape) : Opcode :=
  { code, mnemonic, shapes, flow := .ret }

/-- A branch, with the code of its other width. -/
def branching (code : UInt8) (mnemonic : String) (shapes : List Shape) (flow : Flow)
    (twin : Option UInt8) : Opcode :=
  { code, mnemonic, shapes, flow, twin }

/-- An opcode that shows a text. -/
def showing (code : UInt8) (mnemonic : String) (shapes : List Shape) : Opcode :=
  { code, mnemonic, shapes, flags := .text }

/-- An opcode that moves the player to another scene. -/
def leaving (code : UInt8) (mnemonic : String) (shapes : List Shape) : Opcode :=
  { code, mnemonic, shapes, flags := .mapJump }

/-- All opcodes, in the order of their codes. -/
def catalogue : List Opcode :=
  [returning 0x00 "RET" [],
    calling 0x01 "REQ",
    calling 0x02 "REQSW",
    calling 0x03 "REQEW",
    calling 0x04 "PREQ",
    calling 0x05 "PRQSW",
    calling 0x06 "PRQEW",
    returning 0x07 "RETTO" [uint8],
    plain 0x08 "JOIN" [uint8],
    plain 0x09 "SPLIT" [bankAddress, bankAddress, bankAddress, int16, int16, uint8, int16, int16,
      uint8, uint8],
    plain 0x0A "SPTYE" [bankAddress, bankAddress, varRef8, varRef8, varRef8],
    plain 0x0B "GTPYE" [bankAddress, bankAddress, varRef8, varRef8, varRef8],
    plain 0x0E "DSKCG" [uint8],
    plain 0x0F "SPECIAL" [uint8],
    branching 0x10 "JMPF" [shortBranch] (.jump .forward .short) (some 0x11),
    branching 0x11 "JMPFL" [longBranch] (.jump .forward .long) (some 0x10),
    branching 0x12 "JMPB" [shortBranch] (.jump .backward .short) (some 0x13),
    branching 0x13 "JMPBL" [longBranch] (.jump .backward .long) (some 0x12),
    branching 0x14 "IFUB" [bankAddress, varRef8, varRef8, uint8, shortBranch] (.conditional .short)
      (some 0x15),
    branching 0x15 "IFUBL" [bankAddress, varRef8, varRef8, uint8, longBranch] (.conditional .long)
      (some 0x14),
    branching 0x16 "IFSW" [bankAddress, varRef16, varRef16, uint8, shortBranch] (.conditional
      .short) (some 0x17),
    branching 0x17 "IFSWL" [bankAddress, varRef16, varRef16, uint8, longBranch] (.conditional .long)
      (some 0x16),
    branching 0x18 "IFUW" [bankAddress, varRef16, varRef16, uint8, shortBranch] (.conditional
      .short) (some 0x19),
    branching 0x19 "IFUWL" [bankAddress, varRef16, varRef16, uint8, longBranch] (.conditional .long)
      (some 0x18),
    plain 0x1A "UNUSED1A" [uint8, uint8, uint8, uint8, uint8, uint8, uint8, uint8, uint8],
    plain 0x1B "UNUSED1B" [uint8, uint8],
    plain 0x1C "UNUSED1C" [uint32, countedBlock],
    leaving 0x20 "MINIGAME" [uint16, int16, int16, uint16, uint8, uint8],
    plain 0x21 "TUTOR" [uint8],
    plain 0x22 "BTMD2" [uint8, uint8, uint8, uint8],
    plain 0x23 "BTRLD" [bankAddress, varRef8],
    plain 0x24 "WAIT" [uint16],
    plain 0x25 "NFADE" [bankAddress, bankAddress, uint8, varRef8, varRef8, varRef8, uint8, uint8],
    plain 0x26 "BLINK" [uint8],
    plain 0x27 "BGMOVIE" [uint8],
    plain 0x28 "KAWAI" [sizedBlock],
    plain 0x29 "KAWIW" [],
    plain 0x2A "PMOVA" [uint8],
    plain 0x2B "SLIP" [uint8],
    plain 0x2C "BGPDH" [bankAddress, uint8, int16],
    plain 0x2D "BGSCR" [bankAddress, uint8, int16, int16],
    plain 0x2E "WCLS" [uint8],
    plain 0x2F "WSIZW" [uint8, uint16, uint16, uint16, uint16],
    branching 0x30 "IFKEY" [uint16, shortBranch] (.conditional .short) none,
    branching 0x31 "IFKEYON" [uint16, shortBranch] (.conditional .short) none,
    branching 0x32 "IFKEYOFF" [uint16, shortBranch] (.conditional .short) none,
    plain 0x33 "UC" [uint8],
    plain 0x34 "PDIRA" [uint8],
    plain 0x35 "PTURA" [uint8, uint8, uint8],
    plain 0x36 "WSPCL" [uint8, uint8, uint8, uint8],
    plain 0x37 "WNUMB" [bankAddress, uint8, varRef16, varRef16, uint8],
    plain 0x38 "STTIM" [bankAddress, bankAddress, varRef8, varRef8, varRef8],
    plain 0x39 "GOLDu" [bankAddress, varRef16, varRef16],
    plain 0x3A "GOLDd" [bankAddress, varRef16, varRef16],
    plain 0x3B "CHGLD" [bankAddress, varRef8, varRef8],
    plain 0x3C "HMPMAX1" [],
    plain 0x3D "HMPMAX2" [],
    plain 0x3E "MHMMX" [],
    plain 0x3F "HMPMAX3" [],
    showing 0x40 "MESSAGE" [uint8, uint8],
    plain 0x41 "MPARA" [bankAddress, uint8, uint8, varRef8],
    plain 0x42 "MPRA2" [bankAddress, uint8, uint8, varRef16],
    plain 0x43 "MPNAM" [uint8],
    plain 0x45 "MPu" [bankAddress, varRef8, varRef16],
    plain 0x47 "MPd" [bankAddress, varRef8, varRef16],
    showing 0x48 "ASK" [bankAddress, uint8, uint8, uint8, uint8, varRef8],
    plain 0x49 "MENU" [bankAddress, uint8, varRef8],
    plain 0x4A "MENU2" [uint8],
    plain 0x4B "BTLTB" [uint8],
    plain 0x4D "HPu" [bankAddress, uint8, varRef16],
    plain 0x4F "HPd" [bankAddress, uint8, varRef16],
    plain 0x50 "WINDOW" [uint8, uint16, uint16, uint16, uint16],
    plain 0x51 "WMOVE" [uint8, int16, int16],
    plain 0x52 "WMODE" [uint8, uint8, uint8],
    plain 0x53 "WREST" [uint8],
    plain 0x54 "WCLSE" [uint8],
    plain 0x55 "WROW" [uint8, uint8],
    plain 0x56 "GWCOL" [bankAddress, bankAddress, uint8, varRef8, varRef8, varRef8],
    plain 0x57 "SWCOL" [bankAddress, bankAddress, uint8, varRef8, varRef8, varRef8],
    plain 0x58 "STITM" [bankAddress, varRef16, varRef8],
    plain 0x59 "DLITM" [bankAddress, varRef16, varRef8],
    plain 0x5A "CKITM" [bankAddress, varRef16, varRef8],
    plain 0x5B "SMTRA" [bankAddress, bankAddress, varRef8, varRef8, varRef8, varRef8],
    plain 0x5C "DMTRA" [bankAddress, bankAddress, varRef8, varRef8, varRef8, varRef8, uint8],
    plain 0x5D "CMTRA" [bankAddress, bankAddress, bankAddress, varRef8, varRef8, varRef8, varRef8,
      varRef8, varRef8],
    plain 0x5E "SHAKE" [uint8, uint8, uint8, uint8, uint8, uint8, uint8],
    plain 0x5F "NOP" [],
    leaving 0x60 "MAPJUMP" [uint16, int16, int16, uint16, uint8],
    plain 0x61 "SCRLO" [uint8],
    plain 0x62 "SCRLC" [bankAddress, varRef16, uint8],
    plain 0x63 "SCRLA" [bankAddress, varRef16, uint8, uint8],
    plain 0x64 "SCR2D" [bankAddress, varRef16, varRef16],
    plain 0x65 "SCRCC" [],
    plain 0x66 "SCR2DC" [bankAddress, bankAddress, varRef16, varRef16, varRef16],
    plain 0x67 "SCRLW" [],
    plain 0x68 "SCR2DL" [bankAddress, bankAddress, varRef16, varRef16, varRef16],
    plain 0x69 "MPDSP" [uint8],
    plain 0x6A "VWOFT" [bankAddress, varRef16, varRef16, uint8],
    plain 0x6B "FADE" [bankAddress, bankAddress, varRef8, varRef8, varRef8, uint8, uint8, uint8],
    plain 0x6C "FADEW" [],
    plain 0x6D "IDLCK" [uint16, uint8],
    plain 0x6E "LSTMP" [bankAddress, varRef8],
    plain 0x6F "SCRLP" [bankAddress, varRef16, uint8, uint8],
    plain 0x70 "BATTLE" [bankAddress, varRef16],
    plain 0x71 "BTLON" [uint8],
    plain 0x72 "BTLMD" [uint16],
    plain 0x73 "PGTDR" [bankAddress, uint8, varRef8],
    plain 0x74 "GETPC" [bankAddress, uint8, varRef8],
    plain 0x75 "PXYZI" [bankAddress, bankAddress, uint8, varRef8, varRef8, varRef8, varRef8],
    plain 0x76 "PLUS!" [bankAddress, varRef8, varRef8],
    plain 0x77 "PLUS2!" [bankAddress, varRef8, varRef16],
    plain 0x78 "MINUS!" [bankAddress, varRef8, varRef8],
    plain 0x79 "MINUS2!" [bankAddress, varRef8, varRef16],
    plain 0x7A "INC!" [bankAddress, varRef8],
    plain 0x7B "INC2!" [bankAddress, varRef8],
    plain 0x7C "DEC!" [bankAddress, varRef8],
    plain 0x7D "DEC2!" [bankAddress, varRef8],
    plain 0x7E "TLKON" [uint8],
    plain 0x7F "RDMSD" [bankAddress, varRef8],
    plain 0x80 "SETBYTE" [bankAddress, varRef8, varRef8],
    plain 0x81 "SETWORD" [bankAddress, varRef8, varRef16],
    plain 0x82 "BITON" [bankAddress, varRef8, varRef8],
    plain 0x83 "BITOFF" [bankAddress, varRef8, varRef8],
    plain 0x84 "BITXOR" [bankAddress, varRef8, varRef8],
    plain 0x85 "PLUS" [bankAddress, varRef8, varRef8],
    plain 0x86 "PLUS2" [bankAddress, varRef8, varRef16],
    plain 0x87 "MINUS" [bankAddress, varRef8, varRef8],
    plain 0x88 "MINUS2" [bankAddress, varRef8, varRef16],
    plain 0x89 "MUL" [bankAddress, varRef8, varRef8],
    plain 0x8A "MUL2" [bankAddress, varRef8, varRef16],
    plain 0x8B "DIV" [bankAddress, varRef8, varRef8],
    plain 0x8C "DIV2" [bankAddress, varRef8, varRef16],
    plain 0x8D "MOD" [bankAddress, varRef8, varRef8],
    plain 0x8E "MOD2" [bankAddress, varRef8, varRef16],
    plain 0x8F "AND" [bankAddress, varRef8, varRef8],
    plain 0x90 "AND2" [bankAddress, varRef8, varRef16],
    plain 0x91 "OR" [bankAddress, varRef8, varRef8],
    plain 0x92 "OR2" [bankAddress, varRef8, varRef16],
    plain 0x93 "XOR" [bankAddress, varRef8, varRef8],
    plain 0x94 "XOR2" [bankAddress, varRef8, varRef16],
    plain 0x95 "INC" [bankAddress, varRef8],
    plain 0x96 "INC2" [bankAddress, varRef8],
    plain 0x97 "DEC" [bankAddress, varRef8],
    plain 0x98 "DEC2" [bankAddress, varRef8],
    plain 0x99 "RANDOM" [bankAddress, varRef8],
    plain 0x9A "LBYTE" [bankAddress, varRef8, varRef8],
    plain 0x9B "HBYTE" [bankAddress, varRef8, varRef16],
    plain 0x9C "2BYTE" [bankAddress, bankAddress, varRef8, varRef8, varRef8],
    plain 0x9D "SETX" [uint8, uint8, uint8, uint8, uint8, uint8],
    plain 0x9E "GETX" [uint8, uint8, uint8, uint8, uint8, uint8],
    plain 0x9F "SEARCHX" [bankAddress, bankAddress, bankAddress, uint8, varRef16, varRef16, varRef8,
      varRef8],
    plain 0xA0 "PC" [uint8],
    plain 0xA1 "CHAR" [uint8],
    plain 0xA2 "DFANM" [uint8, uint8],
    plain 0xA3 "ANIME1" [uint8, uint8],
    plain 0xA4 "VISI" [uint8],
    plain 0xA5 "XYZI" [bankAddress, bankAddress, varRef16, varRef16, varRef16, varRef16],
    plain 0xA6 "XYI" [bankAddress, bankAddress, varRef16, varRef16, varRef16],
    plain 0xA7 "XYZ" [bankAddress, bankAddress, varRef16, varRef16, varRef16],
    plain 0xA8 "MOVE" [bankAddress, varRef16, varRef16],
    plain 0xA9 "CMOVE" [bankAddress, varRef16, varRef16],
    plain 0xAA "MOVA" [uint8],
    plain 0xAB "TURA" [uint8, uint8, uint8],
    plain 0xAC "ANIMW" [],
    plain 0xAD "FMOVE" [bankAddress, varRef16, varRef16],
    plain 0xAE "ANIME2" [uint8, uint8],
    plain 0xAF "ANIM!1" [uint8, uint8],
    plain 0xB0 "CANIM1" [uint8, uint8, uint8, uint8],
    plain 0xB1 "CANM!1" [uint8, uint8, uint8, uint8],
    plain 0xB2 "MSPED" [bankAddress, varRef16],
    plain 0xB3 "DIR" [bankAddress, varRef8],
    plain 0xB4 "TURNGEN" [bankAddress, varRef8, uint8, uint8, uint8],
    plain 0xB5 "TURN" [bankAddress, varRef8, uint8, uint8, uint8],
    plain 0xB6 "DIRA" [uint8],
    plain 0xB7 "GETDIR" [bankAddress, uint8, varRef8],
    plain 0xB8 "GETAXY" [bankAddress, uint8, varRef8, varRef8],
    plain 0xB9 "GETAI" [bankAddress, uint8, varRef8],
    plain 0xBA "ANIM!2" [uint8, uint8],
    plain 0xBB "CANIM2" [uint8, uint8, uint8, uint8],
    plain 0xBC "CANM!2" [uint8, uint8, uint8, uint8],
    plain 0xBD "ASPED" [bankAddress, varRef16],
    plain 0xBF "CC" [uint8],
    plain 0xC0 "JUMP" [bankAddress, bankAddress, varRef16, varRef16, varRef16, varRef16],
    plain 0xC1 "AXYZI" [bankAddress, bankAddress, uint8, varRef8, varRef8, varRef8, varRef8],
    plain 0xC2 "LADER" [bankAddress, bankAddress, varRef16, varRef16, varRef16, varRef16, uint8,
      uint8, uint8, uint8],
    plain 0xC3 "OFST" [bankAddress, bankAddress, uint8, varRef16, varRef16, varRef16, varRef16],
    plain 0xC4 "OFSTW" [],
    plain 0xC5 "TALKR" [bankAddress, varRef8],
    plain 0xC6 "SLIDR" [bankAddress, varRef8],
    plain 0xC7 "SOLID" [uint8],
    plain 0xC8 "PRTYP" [uint8],
    plain 0xC9 "PRTYM" [uint8],
    plain 0xCA "PRTYE" [uint8, uint8, uint8],
    branching 0xCB "IFPRTYQ" [uint8, shortBranch] (.conditional .short) none,
    branching 0xCC "IFMEMBQ" [uint8, shortBranch] (.conditional .short) none,
    plain 0xCD "MMBud" [uint8, uint8],
    plain 0xCE "MMBLK" [uint8],
    plain 0xCF "MMBUK" [uint8],
    plain 0xD0 "LINE" [int16, int16, int16, int16, int16, int16],
    plain 0xD1 "LINON" [uint8],
    plain 0xD2 "MPJPO" [uint8],
    plain 0xD3 "SLINE" [bankAddress, bankAddress, bankAddress, varRef16, varRef16, varRef16,
      varRef16, varRef16, varRef16],
    plain 0xD4 "SIN" [bankAddress, bankAddress, varRef16, varRef16, varRef16, varRef8],
    plain 0xD5 "COS" [bankAddress, bankAddress, varRef16, varRef16, varRef16, varRef8],
    plain 0xD6 "TLKR2" [bankAddress, varRef16],
    plain 0xD7 "SLDR2" [bankAddress, varRef16],
    plain 0xD8 "PMJMP" [uint16],
    plain 0xD9 "PMJMP2" [],
    plain 0xDA "AKAO2" [bankAddress, bankAddress, bankAddress, uint8, varRef16, varRef16, varRef16,
      varRef16, varRef16],
    plain 0xDB "FCFIX" [uint8],
    plain 0xDC "CCANM" [uint8, uint8, uint8],
    plain 0xDD "ANIMB" [],
    plain 0xDE "TURNW" [],
    plain 0xDF "MPPAL" [uint8, uint8, uint8, uint8, uint8, uint8, uint8, uint8, uint8, uint8],
    plain 0xE0 "BGON" [bankAddress, varRef8, varRef8],
    plain 0xE1 "BGOFF" [bankAddress, varRef8, varRef8],
    plain 0xE2 "BGROL" [bankAddress, varRef8],
    plain 0xE3 "BGROL2" [bankAddress, varRef8],
    plain 0xE4 "BGCLR" [bankAddress, varRef8],
    plain 0xE5 "STPAL" [bankAddress, varRef8, varRef8, uint8],
    plain 0xE6 "LDPAL" [bankAddress, varRef8, varRef8, uint8],
    plain 0xE7 "CPPAL" [bankAddress, varRef8, varRef8, uint8],
    plain 0xE8 "RTPAL" [bankAddress, bankAddress, varRef8, varRef8, varRef8, uint8],
    plain 0xE9 "ADPAL" [bankAddress, bankAddress, bankAddress, varRef8, varRef8, varRef8, varRef8,
      varRef8, varRef8],
    plain 0xEA "MPPAL2" [bankAddress, bankAddress, bankAddress, varRef8, varRef8, varRef8, varRef8,
      varRef8, varRef8],
    plain 0xEB "STPLS" [uint8, uint8, uint8, uint8],
    plain 0xEC "LDPLS" [uint8, uint8, uint8, uint8],
    plain 0xED "CPPAL2" [uint8, uint8, uint8, uint8, uint8, uint8, uint8],
    plain 0xEE "RTPAL2" [uint8, uint8, uint8, uint8, uint8, uint8, uint8],
    plain 0xEF "ADPAL2" [uint8, uint8, uint8, uint8, uint8, uint8, uint8, uint8, uint8, uint8],
    plain 0xF0 "MUSIC" [uint8],
    plain 0xF1 "SOUND" [bankAddress, varRef16, varRef8],
    plain 0xF2 "AKAO" [bankAddress, bankAddress, bankAddress, uint8, varRef8, varRef16, varRef16,
      varRef16, varRef16],
    plain 0xF3 "MUSVT" [uint8],
    plain 0xF4 "MUSVM" [uint8],
    plain 0xF5 "MULCK" [uint8],
    plain 0xF6 "BMUSC" [uint8],
    plain 0xF7 "CHMPH" [uint8, uint8, uint8],
    plain 0xF8 "PMVIE" [uint8],
    plain 0xF9 "MOVIE" [],
    plain 0xFA "MVIEF" [bankAddress, varRef8],
    plain 0xFB "MVCAM" [uint8],
    plain 0xFC "FMUSC" [uint8],
    plain 0xFD "CMUSC" [uint8, uint8, uint8, uint8, uint8, uint8, uint8],
    plain 0xFE "CHMST" [bankAddress, varRef8],
    plain 0xFF "GAMEOVER" []]

/-! ### Looking up -/

/-- The opcode with a given code. -/
def ofCode? (code : UInt8) : Option Opcode := catalogue.find? (·.code == code)

/-- A text with its ASCII letters in lower case. -/
def foldCase (text : String) : List Char := text.toList.map Char.toLower

/-- The first opcode with a given mnemonic. -/
def ofMnemonic? (mnemonic : String) : Option Opcode :=
  let folded := foldCase mnemonic
  catalogue.find? fun opcode => foldCase opcode.mnemonic == folded

/-- The long form of a short branch. -/
def longTwin? (opcode : Opcode) : Option Opcode :=
  if opcode.flow.hasTarget && !opcode.flow.isLong then opcode.twin.bind ofCode? else none

/-- The short form of a long branch. -/
def shortTwin? (opcode : Opcode) : Option Opcode :=
  if opcode.flow.isLong then opcode.twin.bind ofCode? else none

/-- The jump of the same width in the other direction; only unconditional jumps have one. -/
def reversed? (opcode : Opcode) : Option Opcode :=
  if opcode.flow.isJump then
    catalogue.find? fun other =>
      other.flow.isJump && other.flow.isLong == opcode.flow.isLong &&
        other.flow.isBackward != opcode.flow.isBackward
  else none

/-- The short form of a branch, and any other opcode itself. -/
def family (opcode : Opcode) : Opcode := opcode.shortTwin?.getD opcode

end SceneScript.Opcode
