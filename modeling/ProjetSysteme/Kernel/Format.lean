/- Kernel/Format
   source: shared/doprnt.c, shared/sprintf.c, shared/printf.c
   digest: Formats: what they print, in memory or on the console. -/

import Mathlib.Algebra.Ring.Int.Defs
import ProjetSysteme.Kernel.Numeral
import ProjetSysteme.Library.Loop

set_option autoImplicit false
set_option relaxedAutoImplicit false

namespace ProjetSysteme.Kernel.Format

open Numeral (Octet Entier printnum)

/-- What `va_arg` finds: a word, or a pointer to the characters of a string; none is the null pointer. -/
inductive Argument
  | mot (v : Entier)
  | chaine (s : Option (List Octet))
  deriving DecidableEq, Repr

/-- An `int`; an operation that overflows has no result. -/
def entier (x : Int) : Option Int := if -2 ^ 31 ≤ x ∧ x < 2 ^ 31 then some x else none

def isdigit (d : Octet) : Bool := 0x30 ≤ d && d ≤ 0x39

/-- The locals of `_doprnt` that the characters after a `%` set. -/
structure Directive where
  length : Int
  prec : Int
  ladjust : Bool
  padc : Octet
  plusSign : Octet
  altfmt : Bool
  deriving DecidableEq, Repr

def lireDrapeaux (d : Directive) : List Octet → Directive × List Octet
  | [] => (d, [])
  | c :: fmt =>
    if c = 0x23 then lireDrapeaux { d with altfmt := true } fmt
    else if c = 0x2d then lireDrapeaux { d with ladjust := true } fmt
    else if c = 0x2b then lireDrapeaux { d with plusSign := 0x2b } fmt
    else if c = 0x20 then lireDrapeaux (if d.plusSign = 0 then { d with plusSign := 0x20 } else d) fmt
    else (d, c :: fmt)

def lireEntier (v : Int) : List Octet → Option (Int × List Octet)
  | [] => some (v, [])
  | c :: fmt =>
    if isdigit c then do lireEntier (← entier (10 * v + (c.toNat - 0x30))) fmt else some (v, c :: fmt)

def vaArg : List Argument → Option (Entier × List Argument)
  | .mot v :: args => some (v, args)
  | _ => none

def lireLargeur (d : Directive) (fmt : List Octet) (args : List Argument) :
    Option (Directive × List Octet × List Argument) :=
  match fmt with
  | [] => some (d, [], args)
  | c :: suite =>
    if isdigit c then do
      let (length, fmt) ← lireEntier 0 (c :: suite)
      some ({ d with length := length }, fmt, args)
    else if c = 0x2a then do
      let (v, args) ← vaArg args
      if v.toInt < 0 then
        some ({ d with length := ← entier (-v.toInt), ladjust := !d.ladjust }, suite, args)
      else some ({ d with length := v.toInt }, suite, args)
    else some (d, c :: suite, args)

/-- After the `.`; the precision is -1 when nothing gives it. -/
def lirePrec (d : Directive) (fmt : List Octet) (args : List Argument) :
    Option (Directive × List Octet × List Argument) :=
  match fmt with
  | [] => some (d, [], args)
  | c :: suite =>
    if isdigit c then do
      let (prec, fmt) ← lireEntier 0 (c :: suite)
      some ({ d with prec := prec }, fmt, args)
    else if c = 0x2a then do
      let (v, args) ← vaArg args
      some ({ d with prec := v.toInt }, suite, args)
    else some (d, c :: suite, args)

def lireZero (d : Directive) (fmt : List Octet) : Directive × List Octet :=
  if fmt.head? = some 0x30 then ({ d with padc := 0x30 }, fmt.tail) else (d, fmt)

def lirePoint (d : Directive) (fmt : List Octet) (args : List Argument) :
    Option (Directive × List Octet × List Argument) :=
  if fmt.head? = some 0x2e then lirePrec d fmt.tail args else some (d, fmt, args)

def lireLong (fmt : List Octet) : List Octet := if fmt.head? = some 0x6c then fmt.tail else fmt

def initiale : Directive :=
  { length := 0, prec := -1, ladjust := false, padc := 0x20, plusSign := 0, altfmt := false }

/-- From the character after a `%` to the one that tells the conversion. -/
def lireDirective (fmt : List Octet) (args : List Argument) : Option (Directive × List Octet × List Argument) := do
  let (d, fmt) := lireDrapeaux initiale fmt
  let (d, fmt) := lireZero d fmt
  let (d, fmt, args) ← lireLargeur d fmt args
  let (d, fmt, args) ← lirePoint d fmt args
  some (d, lireLong fmt, args)

/-- `printnum`; a base that the table of digits does not serve has no result. -/
def printnumBase (u : Entier) (base : Nat) : Option (List Octet) :=
  if base < 2 ∨ 16 < base then none else some (printnum u base)

def repeter (c : Octet) (n : Int) : Option (List Octet × Int) := do
  some (List.replicate n.toNat c, ← entier (min n 0 - 1))

def repeterSi (condition : Prop) [Decidable condition] (c : Octet) (n : Int) : Option (List Octet × Int) :=
  if condition then repeter c n else some ([], n)

def prefixe (altfmt : Bool) (u : Entier) (base : Nat) : List Octet :=
  if u ≠ 0 ∧ altfmt then if base = 8 then [0x30] else if base = 16 then [0x30, 0x78] else [] else []

def printNum (d : Directive) (signChar : Octet) (u : Entier) (base : Nat) : Option (List Octet) := do
  let buf ← printnumBase u base
  let signe := if signChar ≠ 0 then [signChar] else []
  let pre := prefixe d.altfmt u base
  let prec ← entier (d.prec - buf.length)
  let length ← entier (d.length - buf.length)
  let length ← entier (length - signe.length)
  let length ← entier (length - pre.length)
  let length ← entier (length - max prec 0)
  -- blank padding goes before prefix
  let (blancs, length) ← repeterSi (d.padc = 0x20 ∧ ¬ d.ladjust) 0x20 length
  let (zeros, _) ← repeter 0x30 prec
  -- zero padding goes after sign and prefix
  let (zeros', length) ← repeterSi (d.padc = 0x30) 0x30 length
  let (fin, _) ← repeterSi d.ladjust 0x20 length
  some (blancs ++ signe ++ pre ++ zeros ++ zeros' ++ buf ++ fin)

def printSigned (d : Directive) (base : Nat) (args : List Argument) : Option (List Octet × List Argument) := do
  let (n, args) ← vaArg args
  let texte ← if 0 ≤ n.toInt then printNum d d.plusSign n base else printNum d 0x2d (-n) base
  some (texte, args)

def printUnsigned (d : Directive) (base : Nat) (args : List Argument) : Option (List Octet × List Argument) := do
  let (u, args) ← vaArg args
  let texte ← printNum d 0 u base
  some (texte, args)

def compter (prec n : Int) : List Octet → Int
  | [] => n
  | c :: p => if c ≠ 0 ∧ n < prec then compter prec (n + 1) p else n

/-- The second loop of `%s`: what it prints, and `n` after it. -/
def copier (prec n : Int) : List Octet → List Octet × Int
  | [] => ([], n)
  | c :: p =>
    if c = 0 then ([], n)
    else if prec < n + 1 then ([], n + 1)
    else
      let (texte, n) := copier prec (n + 1) p
      (c :: texte, n)

def printChaine (d : Directive) (s : Option (List Octet)) : List Octet :=
  let prec := if d.prec = -1 then 0x7fffffff else d.prec
  let p := s.getD []
  let blancs := if 0 < d.length ∧ ¬ d.ladjust then List.replicate (d.length - compter prec 0 p).toNat 0x20 else []
  let (texte, n) := copier prec 0 p
  let fin := if n < d.length ∧ d.ladjust then List.replicate (d.length - n).toNat 0x20 else []
  blancs ++ texte ++ fin

def deNom (c : Octet) : Bool := !c.sle 32

/-- The loop of `%b` on the names, whose characters bound its turns; a shift by less than 0 or by more than 31
has no result. -/
def nommerBits (u : Entier) (base : Nat) : Nat → Bool → List Octet → Option (List Octet × Bool)
  | tours + 1, any, i :: p =>
    if i = 0 then some ([], any)
    else
      let separateur : Octet := if any then 0x2c else 0x3c
      match p with
      | [] => none
      | j :: suite =>
        if ¬ deNom j then
          if i.toInt < j.toInt ∨ j.toInt < 1 ∨ 32 < j.toInt ∨ 31 < i.toInt - j.toInt then none
          else do
            let champ := (u >>> (j.toNat - 1)) &&& (((2 : Entier) <<< (i.toNat - j.toNat)) - 1)
            let valeur ← printnumBase champ base
            let (texte, any) ← nommerBits u base tours true (suite.dropWhile deNom)
            some (separateur :: suite.takeWhile deNom ++ valeur ++ texte, any)
        else if i.toInt < 1 ∨ 32 < i.toInt then none
        else if u &&& ((1 : Entier) <<< (i.toNat - 1)) ≠ 0 then do
          let (texte, any) ← nommerBits u base tours true (p.dropWhile deNom)
          some (separateur :: p.takeWhile deNom ++ texte, any)
        else nommerBits u base tours any (p.dropWhile deNom)
  | _, any, _ => some ([], any)

def printBits : List Argument → Option (List Octet × List Argument)
  | .mot u :: .chaine (some (base :: p)) :: args => do
    let nombre ← printnumBase u base.toNat
    if u = 0 then some (nombre, args)
    else
      let (noms, any) ← nommerBits u base.toNat p.length false p
      some (nombre ++ noms ++ if any then [0x3e] else [], args)
  | _ => none

def convertir (radix : Nat) (d : Directive) (c : Octet) (args : List Argument) :
    Option (List Octet × List Argument) :=
  match c.toNat with
  | 0x62 | 0x42 => printBits args
  | 0x63 => do
    let (v, args) ← vaArg args
    some ([v.setWidth 8], args)
  | 0x73 =>
    match args with
    | .chaine s :: args => some (printChaine d s, args)
    | _ => none
  | 0x6f | 0x4f => printUnsigned d 8 args
  | 0x64 | 0x69 | 0x44 => printSigned d 10 args
  | 0x75 | 0x55 => printUnsigned d 10 args
  | 0x70 => do
    let (texte, args) ← printUnsigned { d with padc := 0x30, length := 8 } 16 args
    some (0x30 :: 0x78 :: texte, args)
  | 0x78 | 0x58 => printUnsigned d 16 args
  | 0x7a | 0x5a => printSigned d 16 args
  | 0x72 | 0x52 => printSigned d radix args
  | 0x6e | 0x4e => printUnsigned d radix args
  | _ => some ([c], args)

/-- One turn of the loop of `_doprnt`, on the format left, the arguments left and the characters printed. -/
def tourDoprnt (radix : Nat) (s : List Octet × List Argument × List Octet) :
    Option ((List Octet × List Argument × List Octet) ⊕ List Octet) :=
  match s with
  | ([], _, sortie) => some (.inr sortie)
  | (c :: fmt, args, sortie) =>
    if c ≠ 0x25 then some (.inl (fmt, args, sortie ++ [c]))
    else do
      let (d, fmt, args) ← lireDirective fmt args
      match fmt with
      | [] => some (.inl ([], args, sortie))
      | c :: fmt => do
        let (texte, args) ← convertir radix d c args
        some (.inl (fmt, args, sortie ++ texte))

/-- The characters that `_doprnt` gives to `putc`; each turn takes one of the format. -/
def doprnt (radix : Nat) (fmt : List Octet) (args : List Argument) : Option (List Octet) :=
  let fmt := fmt.takeWhile (· ≠ 0)
  Library.Loop.loop (tourDoprnt radix) (fmt.length + 1) (fmt, args, [])

/-- `struct sprintf_state`, with the memory from `s` on; `buf` is always `s + len`. -/
structure SprintfState where
  s : Nat → Octet
  len : Nat
  max : Nat

def sprintfUnlimited : Nat := 0xFFFFFFF

def savechar (state : SprintfState) (c : Octet) : SprintfState :=
  if state.max ≠ sprintfUnlimited ∧ state.len = state.max then state
  else { state with s := Function.update state.s state.len c, len := state.len + 1 }

def vsnprintf (s : Nat → Octet) (size : Nat) (fmt : List Octet) (args : List Argument) :
    Option ((Nat → Octet) × Nat) := do
  let texte ← doprnt 0 fmt args
  let state := texte.foldl savechar { s := s, len := 0, max := size }
  some (Function.update state.s state.len 0, state.len)

def vsprintf (s : Nat → Octet) (fmt : List Octet) (args : List Argument) : Option ((Nat → Octet) × Nat) :=
  vsnprintf s sprintfUnlimited fmt args

def printfBufmax : Nat := 128

/-- `struct printf_state`, with the calls of `console_putbytes`. -/
structure PrintfState where
  buf : Nat → Octet
  index : Nat
  envois : List (List Octet)

def flush (state : PrintfState) : PrintfState :=
  { state with index := 0, envois := state.envois ++ [(List.range state.index).map state.buf] }

def printfChar (state : PrintfState) (c : Octet) : PrintfState :=
  if c = 0 ∨ c = 0x0a ∨ printfBufmax ≤ state.index then
    let state := flush state
    { state with buf := Function.update state.buf 0 c, envois := state.envois ++ [[c]] }
  else { state with buf := Function.update state.buf state.index c, index := state.index + 1 }

/-- `buf` is the memory of the stack before the call. -/
def vprintf (buf : Nat → Octet) (fmt : List Octet) (args : List Argument) : Option (List (List Octet)) := do
  let texte ← doprnt 0 fmt args
  let state := texte.foldl printfChar { buf := buf, index := 0, envois := [] }
  some (if state.index ≠ 0 then flush state else state).envois

end ProjetSysteme.Kernel.Format
