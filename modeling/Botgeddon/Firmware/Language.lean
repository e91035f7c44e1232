import Botgeddon.Lib.LastWriter
import Botgeddon.Firmware.IndexSafety

/-! The command language, as a language.

A stream of bytes is a sequence of tokens: a character, the reset, or a command
with its argument, whatever byte the argument is. `tokenize` reads them off from
left to right, and the panel acts on one token at a time (`feed_tokenize`). Every
register of the display then holds what the last token addressing it wrote; only
where a character goes depends on the tokens before it. -/
namespace Botgeddon.Firmware
open LastWriter

inductive Token where
  | data (c : UInt8)
  | reset
  | command (cmd arg : UInt8)
deriving DecidableEq

/-- The tokens of a stream, and a last command byte that waits for its argument. -/
def tokenize : List UInt8 → List Token × Option UInt8
  | [] => ([], none)
  | [c] =>
    if Displayable c then ([.data c], none)
    else if c = resetCmd then ([.reset], none)
    else ([], some c)
  | c :: a :: rest =>
    if Displayable c then (.data c :: (tokenize (a :: rest)).1, (tokenize (a :: rest)).2)
    else if c = resetCmd then (.reset :: (tokenize (a :: rest)).1, (tokenize (a :: rest)).2)
    else (.command c a :: (tokenize rest).1, (tokenize rest).2)

namespace Token

def bytes : Token → List UInt8
  | .data c => [c]
  | .reset => [resetCmd]
  | .command cmd arg => [cmd, arg]

/-- A byte that starts a command that takes an argument. -/
def Starts (c : UInt8) : Prop := ¬ Displayable c ∧ c ≠ resetCmd

/-- What the token is follows from its first byte. -/
def WellFormed : Token → Prop
  | .data c => Displayable c
  | .reset => True
  | .command cmd _ => Starts cmd

end Token

/-- The tokens and the byte left over are the stream, split up. -/
theorem tokenize_bytes (bytes : List UInt8) :
    (tokenize bytes).1.flatMap Token.bytes ++ (tokenize bytes).2.toList = bytes := by
  induction bytes using tokenize.induct with
  | case1 => rfl
  | case2 c hdata => rw [tokenize, if_pos hdata]; rfl
  | case3 hdata => rw [tokenize, if_neg hdata, if_pos rfl]; rfl
  | case4 c hdata hreset => rw [tokenize, if_neg hdata, if_neg hreset]; rfl
  | case5 c a rest hdata ih =>
    rw [tokenize, if_pos hdata, List.flatMap_cons, List.append_assoc, ih]
    rfl
  | case6 a rest hdata ih =>
    rw [tokenize, if_neg hdata, if_pos rfl, List.flatMap_cons, List.append_assoc, ih]
    rfl
  | case7 c a rest hdata hreset ih =>
    rw [tokenize, if_neg hdata, if_neg hreset, List.flatMap_cons, List.append_assoc, ih]
    rfl

theorem tokenize_wellFormed (bytes : List UInt8) :
    (∀ t ∈ (tokenize bytes).1, t.WellFormed) ∧ ∀ c ∈ (tokenize bytes).2, Token.Starts c := by
  induction bytes using tokenize.induct with
  | case1 => simp [tokenize]
  | case2 c hdata => simp [tokenize, hdata, Token.WellFormed]
  | case3 hdata => simp [tokenize, hdata, Token.WellFormed]
  | case4 c hdata hreset => simp [tokenize, hdata, hreset, Token.Starts]
  | case5 c a rest hdata ih =>
    rw [tokenize, if_pos hdata]
    exact ⟨List.forall_mem_cons.mpr ⟨hdata, ih.1⟩, ih.2⟩
  | case6 a rest hdata ih =>
    rw [tokenize, if_neg hdata, if_pos rfl]
    exact ⟨List.forall_mem_cons.mpr ⟨trivial, ih.1⟩, ih.2⟩
  | case7 c a rest hdata hreset ih =>
    rw [tokenize, if_neg hdata, if_neg hreset]
    exact ⟨List.forall_mem_cons.mpr ⟨⟨hdata, hreset⟩, ih.1⟩, ih.2⟩

/-! ### What the tokens mean -/

namespace Token

/-- The digit the cursor is sent to. -/
def home : Token → Option ℕ
  | .data _ => none
  | .reset => some 0
  | .command cmd arg => if cmd = cursorCmd ∧ arg ≤ 2 then some arg.toNat else none

def isData : Token → Bool
  | .data _ => true
  | _ => false

end Token

/-- Where the cursor was last sent, if anywhere since the start. -/
def lastHome (tokens : List Token) : ℕ := (tokens.reverse.findSome? Token.home).getD 0

/-- How many characters have come since. -/
def dataSince (tokens : List Token) : ℕ :=
  (tokens.reverse.takeWhile fun t => t.home.isNone).countP Token.isData

/-- Where the next character goes. -/
def position (tokens : List Token) : ℕ := (lastHome tokens + dataSince tokens) % 3

/-- What a token after `before` writes to digit `i`. -/
def digitWrites (i : ℕ) (before : List Token) : Token → Option UInt8
  | .data c => if i = position before then some c else none
  | .reset => some 0x78
  | .command cmd arg =>
    if (cmd = digit1Cmd ∧ i = 0) ∨ (cmd = digit2Cmd ∧ i = 1) ∨ (cmd = digit3Cmd ∧ i = 2) then
      some (arg ||| 0x80)
    else none

def decimalsWrites (_before : List Token) : Token → Option UInt8
  | .data _ => none
  | .reset => some 0
  | .command cmd arg => if cmd = decimalCmd then some arg else none

theorem lastHome_snoc (tokens : List Token) (t : Token) :
    lastHome (tokens ++ [t]) = t.home.getD (lastHome tokens) := by
  simp only [lastHome, List.reverse_append, List.reverse_singleton, List.singleton_append,
    List.findSome?_cons]
  cases t.home <;> rfl

theorem dataSince_snoc (tokens : List Token) (t : Token) :
    dataSince (tokens ++ [t]) =
      if t.home.isSome then 0 else dataSince tokens + t.isData.toNat := by
  simp only [dataSince, List.reverse_append, List.reverse_singleton, List.singleton_append,
    List.takeWhile_cons]
  cases t.home with
  | some i => rfl
  | none => cases hdata : t.isData <;> simp [hdata]

/-- A character is followed by the next position, a command that sends the cursor
nowhere by the same. -/
theorem position_snoc (tokens : List Token) (t : Token) :
    position (tokens ++ [t]) =
      match t.home with
      | some i => i % 3
      | none => (position tokens + t.isData.toNat) % 3 := by
  rw [position, lastHome_snoc, dataSince_snoc]
  cases t.home with
  | some i => rfl
  | none =>
    simp only [Option.getD_none, Option.isSome_none, Bool.false_eq_true, if_false, position]
    omega

/-! ### What the tokens do -/

/-- The panel acts on a token. -/
def Panel.token (p : Panel) : Token → Panel
  | .data c => { p with display := p.display.store c }
  | .reset => { p with display := p.display.reset }
  | .command cmd arg => { Panel.command { p with commandMode := cmd } arg with commandMode := 0 }

theorem Panel.execute_reset {p : Panel} (hmode : p.commandMode = 0) :
    p.execute resetCmd = p.token .reset := by
  rw [Panel.execute_enter hmode (by decide), if_pos rfl, Panel.token]

/-- A byte that is no token of its own starts a command. -/
theorem Panel.execute_start {p : Panel} (hmode : p.commandMode = 0) {c : UInt8} (h : Token.Starts c) :
    p.execute c = { p with commandMode := c } := by
  rw [Panel.execute_enter hmode h.1, if_neg h.2]

/-- The byte after it is the argument. -/
theorem Panel.execute_pair {p : Panel} (hmode : p.commandMode = 0) {c : UInt8} (h : Token.Starts c)
    (arg : UInt8) : (p.execute c).execute arg = p.token (.command c arg) := by
  have hne : c ≠ 0 := by
    rintro rfl
    exact h.1 (.inl (by decide))
  rw [Panel.execute_start hmode h, Panel.execute_command hne]
  rfl

/-- The panel acts on the tokens, and a command byte that is left over waits. -/
theorem feed_tokenize {p : Panel} (hmode : p.commandMode = 0) (bytes : List UInt8) :
    p.feed bytes =
      { (tokenize bytes).1.foldl Panel.token p with commandMode := (tokenize bytes).2.getD 0 } := by
  induction bytes using tokenize.induct generalizing p with
  | case1 =>
    obtain ⟨display, commandMode, eeprom, twiAddress⟩ := p
    obtain rfl : commandMode = 0 := hmode
    rfl
  | case2 c hdata =>
    rw [tokenize, if_pos hdata, Panel.feed_cons, Panel.execute_data hmode hdata]
    obtain ⟨display, commandMode, eeprom, twiAddress⟩ := p
    obtain rfl : commandMode = 0 := hmode
    rfl
  | case3 hdata =>
    rw [tokenize, if_neg hdata, if_pos rfl, Panel.feed_cons, Panel.execute_reset hmode]
    obtain ⟨display, commandMode, eeprom, twiAddress⟩ := p
    obtain rfl : commandMode = 0 := hmode
    rfl
  | case4 c hdata hreset =>
    rw [tokenize, if_neg hdata, if_neg hreset, Panel.feed_cons, Panel.execute_start hmode ⟨hdata, hreset⟩]
    rfl
  | case5 c a rest hdata ih =>
    rw [tokenize, if_pos hdata, Panel.feed_cons, Panel.execute_data hmode hdata]
    exact @ih (p.token (.data c)) hmode
  | case6 a rest hdata ih =>
    rw [tokenize, if_neg hdata, if_pos rfl, Panel.feed_cons, Panel.execute_reset hmode]
    exact @ih (p.token .reset) hmode
  | case7 c a rest hdata hreset ih =>
    rw [tokenize, if_neg hdata, if_neg hreset, Panel.feed_cons, Panel.feed_cons,
      Panel.execute_pair hmode ⟨hdata, hreset⟩]
    exact @ih (p.token (.command c a)) rfl

/-! ### Token by token -/

/-- The argument 3 of a cursor command, which `updateBufferData` lets through. -/
def Token.pastDigits : Token := .command cursorCmd 3

theorem Panel.token_cursor {p : Panel} (h : p.display.cursor < 3) {t : Token} (ht : t ≠ .pastDigits) :
    (p.token t).display.cursor =
      match t.home with
      | some i => i % 3
      | none => (p.display.cursor + t.isData.toNat) % 3 := by
  cases t with
  | data c => exact Display.store_cursor p.display c
  | reset => rfl
  | command cmd arg =>
    show (Panel.command { p with commandMode := cmd } arg).display.cursor = _
    by_cases hhome : cmd = cursorCmd ∧ arg ≤ 2
    · obtain ⟨rfl, harg⟩ := hhome
      have hle : arg ≤ 3 := UInt8.le_trans harg (by decide)
      have hlt : arg.toNat ≤ 2 := harg
      have hmoved : (Panel.command { p with commandMode := cursorCmd } arg).display.cursor = arg.toNat := by
        unfold Panel.command
        rw [if_neg (show (cursorCmd : UInt8) ≠ decimalCmd by decide), if_pos rfl, if_pos hle]
      rw [hmoved, Token.home, if_pos ⟨rfl, harg⟩]
      exact (Nat.mod_eq_of_lt (by omega)).symm
    · have hpast : cmd = cursorCmd → ¬ arg ≤ 3 := by
        rintro rfl hle
        have hnot : ¬ arg ≤ 2 := fun harg => hhome ⟨rfl, harg⟩
        have hthree : arg = 3 := by
          apply UInt8.toNat_inj.mp
          have hle' : arg.toNat ≤ 3 := hle
          have hnot' : ¬ arg.toNat ≤ 2 := hnot
          show arg.toNat = 3
          omega
        exact ht (by rw [Token.pastDigits, hthree])
      rw [@command_cursor_eq { p with commandMode := cmd } arg hpast, Token.home, if_neg hhome]
      exact (Nat.mod_eq_of_lt h).symm

/-- The cursor is where the tokens say. -/
theorem foldl_token_cursor {p : Panel} (h : p.display.cursor = 0) {tokens : List Token}
    (ht : Token.pastDigits ∉ tokens) : (tokens.foldl Panel.token p).display.cursor = position tokens := by
  induction tokens using List.reverseRecOn with
  | nil => exact h
  | append_singleton tokens t ih =>
    have hcursor := ih fun hmem => ht (List.mem_append_left _ hmem)
    have hlt : (tokens.foldl Panel.token p).display.cursor < 3 := by
      rw [hcursor]
      exact Nat.mod_lt _ (by decide)
    have hlast : t ≠ .pastDigits := by
      rintro rfl
      exact ht (List.mem_append_right _ List.mem_cons_self)
    rw [List.foldl_append, List.foldl_cons, List.foldl_nil, Panel.token_cursor hlt hlast, hcursor,
      position_snoc]

/-- Only the digit commands write digits, each its own. -/
theorem command_digit (p : Panel) (arg : UInt8) {i : ℕ} (hi : i < 3) :
    (p.command arg).display.digits[i]! =
      if (p.commandMode = digit1Cmd ∧ i = 0) ∨ (p.commandMode = digit2Cmd ∧ i = 1) ∨
        (p.commandMode = digit3Cmd ∧ i = 2) then arg ||| 0x80
      else p.display.digits[i]! := by
  have h12 : digit1Cmd ≠ digit2Cmd := by decide
  have h13 : digit1Cmd ≠ digit3Cmd := by decide
  have h23 : digit2Cmd ≠ digit3Cmd := by decide
  have hcommand : (p.command arg).display.digits =
      if p.commandMode = digit1Cmd then p.display.digits.set 0 (arg ||| 0x80)
      else if p.commandMode = digit2Cmd then p.display.digits.set 1 (arg ||| 0x80)
      else if p.commandMode = digit3Cmd then p.display.digits.set 2 (arg ||| 0x80)
      else p.display.digits := by
    unfold Panel.command Panel.setupTWI
    split_ifs <;> first | rfl | simp_all [decimalCmd, cursorCmd, twiAddressCmd, digit1Cmd, digit2Cmd, digit3Cmd]
  rw [hcommand]
  by_cases h1 : p.commandMode = digit1Cmd
  · rw [if_pos h1, getElem!_set _ hi (by decide)]
    simp [h1, h12, h13]
  by_cases h2 : p.commandMode = digit2Cmd
  · rw [if_neg h1, if_pos h2, getElem!_set _ hi (by decide)]
    simp [h2, h12.symm, h23]
  by_cases h3 : p.commandMode = digit3Cmd
  · rw [if_neg h1, if_neg h2, if_pos h3, getElem!_set _ hi (by decide)]
    simp [h3, h13.symm, h23.symm]
  · simp [h1, h2, h3]

theorem Panel.token_digit {p : Panel} {before : List Token} (h : p.display.cursor = position before)
    {i : ℕ} (hi : i < 3) (t : Token) :
    (p.token t).display.digits[i]! = (digitWrites i before t).getD p.display.digits[i]! := by
  have hcursor : p.display.cursor < 3 := by
    rw [h]
    exact Nat.mod_lt _ (by decide)
  cases t with
  | data c =>
    show (p.display.store c).digits[i]! = _
    rw [Display.store_eq hcursor, digitWrites, ← h]
    show (p.display.digits.set p.display.cursor c)[i]! = _
    rw [getElem!_set _ hi hcursor]
    split <;> rfl
  | reset =>
    have hreset : ∀ j < 3, (#v[0x78, 0x78, 0x78] : Vector UInt8 3)[j]! = 0x78 := by decide
    exact hreset i hi
  | command cmd arg =>
    show (Panel.command { p with commandMode := cmd } arg).display.digits[i]! = _
    rw [command_digit _ _ hi, digitWrites]
    split <;> rfl

theorem Panel.token_decimals {p : Panel} (before : List Token) (hcursor : p.display.cursor < 3) (t : Token) :
    (p.token t).display.decimals = (decimalsWrites before t).getD p.display.decimals := by
  cases t with
  | data c =>
    show (p.display.store c).decimals = _
    rw [Display.store_eq hcursor]
    rfl
  | reset => rfl
  | command cmd arg =>
    show (Panel.command { p with commandMode := cmd } arg).display.decimals = _
    rw [decimalsWrites]
    by_cases hcmd : cmd = decimalCmd
    · subst hcmd
      rw [if_pos rfl, Panel.command, if_pos rfl]
      rfl
    · rw [if_neg hcmd, Panel.command, if_neg hcmd, Panel.setupTWI]
      split_ifs <;> rfl

/-! ### The law -/

/-- **The command language.** A stream none of whose cursor commands has the argument
3 splits into characters, resets, commands with an argument and a byte left over;
then every digit holds what the last token addressing it wrote, a character going
to the position the cursor was last sent to and the characters since have moved it
to; the decimals hold the argument of the last decimal command, or nothing after a
reset; and the byte left over waits in the command mode. -/
theorem command_language (p : Panel) (bytes : List UInt8) (hmode : p.commandMode = 0)
    (hcursor : p.display.cursor = 0) (h : Token.pastDigits ∉ (tokenize bytes).1) :
    (tokenize bytes).1.flatMap Token.bytes ++ (tokenize bytes).2.toList = bytes ∧
      (∀ t ∈ (tokenize bytes).1, t.WellFormed) ∧ (∀ c ∈ (tokenize bytes).2, Token.Starts c) ∧
      (∀ i < 3, Holds (digitWrites i) p.display.digits[i]! (tokenize bytes).1
        (p.feed bytes).display.digits[i]!) ∧
      (p.feed bytes).display.cursor = position (tokenize bytes).1 ∧
      Holds decimalsWrites p.display.decimals (tokenize bytes).1 (p.feed bytes).display.decimals ∧
      (p.feed bytes).commandMode = (tokenize bytes).2.getD 0 := by
  obtain ⟨hwell, hstarts⟩ := tokenize_wellFormed bytes
  have hbefore : ∀ before t after, (tokenize bytes).1 = before ++ t :: after →
      (before.foldl Panel.token p).display.cursor = position before := by
    intro before t after heq
    refine foldl_token_cursor hcursor fun hmem => h ?_
    rw [heq]
    exact List.mem_append_left _ hmem
  rw [feed_tokenize hmode]
  refine ⟨tokenize_bytes bytes, hwell, hstarts, fun i hi => ?_, foldl_token_cursor hcursor h, ?_, rfl⟩
  · refine @holds_foldl _ _ _ (digitWrites i) Panel.token (fun p => p.display.digits[i]!) p _ ?_
    exact fun before t after heq => Panel.token_digit (hbefore before t after heq) hi t
  · refine @holds_foldl _ _ _ decimalsWrites Panel.token (fun p => p.display.decimals) p _ ?_
    intro before t after heq
    refine Panel.token_decimals before ?_ t
    rw [hbefore before t after heq]
    exact Nat.mod_lt _ (by decide)

/-- '1' on the last digit, the first digit raw, then '4' which wraps around, and an
unfinished decimal command. -/
theorem command_language_example :
    Holds (digitWrites 0) 0 (tokenize [0x79, 0x02, 0x31, 0x7B, 0x05, 0x34, 0x77]).1 0x34 ∧
      ((Panel.mk ⟨#v[0, 0, 0], 0, 0⟩ 0 0x61 0x61).feed [0x79, 0x02, 0x31, 0x7B, 0x05, 0x34, 0x77]).commandMode =
        0x77 := by
  have hlaw := command_language ⟨⟨#v[0, 0, 0], 0, 0⟩, 0, 0x61, 0x61⟩
    [0x79, 0x02, 0x31, 0x7B, 0x05, 0x34, 0x77] rfl rfl (by decide)
  exact ⟨hlaw.2.2.2.1 0 (by decide), hlaw.2.2.2.2.2.2⟩

end Botgeddon.Firmware
