import Sexpr.Proofs.Reader.Invariant

/-! Printing and reading again. In a style that keeps its strings the text of a form is split into the
tokens of the form, and the stack machine puts these together to that form, whatever the order of
entries. -/
namespace Sexpr

namespace Form

mutual

/-- The tokens of a form in a style. -/
def tokens (style : Style) : Form → List Token
  | list items => Token.openParen :: (itemTokens style items ++ [Token.closeParen])
  | array items => Token.openBracket :: (itemTokens style items ++ [Token.closeBracket])
  | map entries => Token.openBrace :: (entryTokens style entries ++ [Token.closeBrace])
  | f => [f.print style]

def itemTokens (style : Style) : List Form → List Token
  | [] => []
  | f :: fs => f.tokens style ++ itemTokens style fs

def entryTokens (style : Style) : List (Form × Form) → List Token
  | [] => []
  | (key, value) :: entries => key.tokens style ++ (value.tokens style ++ entryTokens style entries)

end

variable {style : Style}

theorem tokens_atom {f : Form} (h : f.isAtom = true) : f.tokens style = [f.print style] := by
  cases f <;> first | rfl | cases h

theorem texts_eq_map (style : Style) (fs : List Form) : texts style fs = fs.map (print style) := by
  induction fs with
  | nil => rfl
  | cons f fs ih => rw [texts, ih, List.map_cons]

end Form

/-! Splitting the text into tokens. -/

/-- A text that is split into some tokens, whatever follows that does not continue the last one. -/
def Splits (text : String) (tokens : List Token) : Prop :=
  ∀ rest, Token.Stops rest → Token.scan [] (text.toList ++ rest) = tokens ++ Token.scan [] rest

theorem splits_whole {t : Token} (h : Token.Whole t) : Splits t [t] := fun _ => h.scan_append

theorem splits_spaced_nil : Splits (Form.spaced []) [] := fun _ _ => rfl

theorem splits_spaced_cons {text : String} {texts : List String} {ts us : List Token}
    (h : Splits text ts) (hs : Splits (Form.spaced texts) us) :
    Splits (Form.spaced (text :: texts)) (ts ++ us) := by
  intro rest hrest
  cases texts with
  | nil =>
    have hrest' : Token.scan [] rest = us ++ Token.scan [] rest := hs rest hrest
    rw [Form.spaced, String.intercalate_singleton, h rest hrest, List.append_assoc, ← hrest']
  | cons next texts =>
    have hspace : Token.Stops (' ' :: ((Form.spaced (next :: texts)).toList ++ rest)) :=
      Token.stops_cons (by decide)
    have hskip := Token.scan_skip (c := ' ') (s := (Form.spaced (next :: texts)).toList ++ rest)
      (Token.lexeme?_blank (by decide)) (by decide)
    have htext : (Form.spaced (text :: next :: texts)).toList =
        text.toList ++ ' ' :: (Form.spaced (next :: texts)).toList := by
      rw [Form.spaced, String.intercalate_cons_cons, String.toList_append, String.toList_append,
        List.append_assoc]
      rfl
    rw [htext, List.append_assoc, List.cons_append, h _ hspace, hskip, hs rest hrest,
      List.append_assoc]

theorem scan_delimiter {c : Char} (h : Token.isDelimiter c = true) (s : List Char) :
    Token.scan [] (c :: s) = String.singleton c :: Token.scan [] s := by
  have hn := Token.isNameChar_of_isDelimiter h
  have hlexeme : Token.lexeme? c ([] ++ s) = some [c] := by
    rw [Token.lexeme?, if_neg (Token.ne_quote_of_isDelimiter h),
      if_neg (by simp [Token.isDigit_of_not_isNameChar hn]), if_pos h]
  exact Token.scan_of_lexeme? hlexeme

theorem splits_delimited (start close : Char) {text : String} {ts : List Token}
    (hs : Token.isDelimiter start = true) (hc : Token.isDelimiter close = true)
    (h : Splits text ts) :
    Splits (String.singleton start ++ text ++ String.singleton close)
      (String.singleton start :: (ts ++ [String.singleton close])) := by
  intro rest _
  have hstop : Token.Stops (close :: rest) := Token.stops_cons (Token.isNameChar_of_isDelimiter hc)
  rw [String.toList_append, String.toList_append, String.toList_singleton, String.toList_singleton,
    List.append_assoc, List.append_assoc, List.singleton_append, List.singleton_append,
    scan_delimiter hs, h _ hstop, scan_delimiter hc]
  simp

namespace Form

variable {style : Style} {f : Form} {fs : List Form} {es : List Entry}

theorem splits_texts (h : ∀ f ∈ fs, Splits (f.print style) (f.tokens style)) :
    Splits (spaced (texts style fs)) (itemTokens style fs) := by
  induction fs with
  | nil => exact splits_spaced_nil
  | cons f fs ih =>
    obtain ⟨hf, hfs⟩ := List.forall_mem_cons.mp h
    exact splits_spaced_cons hf (ih hfs)

theorem splits_entryTexts (h : ∀ e ∈ es, Splits (e.1.print style) (e.1.tokens style) ∧
    Splits (e.2.print style) (e.2.tokens style)) :
    Splits (spaced (entryTexts style es)) (entryTokens style es) := by
  induction es with
  | nil => exact splits_spaced_nil
  | cons e es ih =>
    obtain ⟨⟨hkey, hvalue⟩, hes⟩ := List.forall_mem_cons.mp h
    exact splits_spaced_cons hkey (splits_spaced_cons hvalue (ih hes))

theorem splits_print (hf : Everywhere Legible f) (hkeeps : Everywhere style.Keeps f) :
    Splits (f.print style) (f.tokens style) := by
  induction f with
  | list items ih =>
    have hitems := (everywhere_list.mp hf).2
    have hkeeps := (everywhere_list.mp hkeeps).2
    exact splits_delimited '(' ')' rfl rfl
      (splits_texts fun a ha => ih a ha (hitems a ha) (hkeeps a ha))
  | array items ih =>
    have hitems := (everywhere_array.mp hf).2
    have hkeeps := (everywhere_array.mp hkeeps).2
    exact splits_delimited '[' ']' rfl rfl
      (splits_texts fun a ha => ih a ha (hitems a ha) (hkeeps a ha))
  | map entries ihk ihv =>
    have hentries := (everywhere_map.mp hf).2
    have hkeeps := (everywhere_map.mp hkeeps).2
    exact splits_delimited '\x7b' '\x7d' rfl rfl
      (splits_entryTexts fun e he =>
        ⟨ihk e he (hentries e he).1 (hkeeps e he).1, ihv e he (hentries e he).2 (hkeeps e he).2⟩)
  | _ =>
    have hlegible := (everywhere_atom rfl).mp hf
    rw [tokens_atom rfl]
    exact splits_whole (whole_print rfl hlegible ((everywhere_atom rfl).mp hkeeps))

end Form

/-! Putting the tokens together. -/

namespace Machine

variable {style : Form.Style} {m n : Machine} {t : Token} {f : Form} {frame : Frame}
  {frames : List Frame} {found : List Form}

theorem not_closes (h : Token.isCloser t = false) : ¬ m.closes t := by
  rintro ⟨frame, -, rfl⟩
  cases frame <;> cases h

variable [Visiting]

theorem run_of_step (h : m.step t = .ok n) (rest : List Token) :
    m.run (t :: rest) = n.run rest := by
  rw [run, h]

theorem step_denotes (h : t.Denotes f) : m.step t = .ok (m.deliver f) := by
  obtain ⟨hl, ho⟩ := Token.notMem_delimiters_iff.mp h.delimiter
  rw [step_eq_take (not_closes hl), take_atom h.statement hl ho, h.form]
  rfl

theorem step_opened (ho : Frame.opened? t = some frame) (hm : m.frames.length < maxDepth) :
    m.step t = .ok { m with frames := frame :: m.frames } := by
  have hs : Statement.ofToken? t = none := by
    rcases opened_cases ho with ⟨rfl, -⟩ | ⟨rfl, -⟩ | ⟨rfl, -⟩ <;> rfl
  rw [step_eq_take (not_closes (isCloser_of_opened ho)), take_opened_of_lt hs ho hm]

theorem step_close (frames : List Frame) (found : List Form) (hclose : frame.close = .ok f) :
    step ⟨frame :: frames, found⟩ frame.closer = .ok (deliver f ⟨frames, found⟩) := by
  rw [step_closer, hclose]

/-- Forms that are each delivered are delivered one after the other. -/
theorem run_itemTokens {fs : List Form} (state : List Form → Machine)
    (hstate : ∀ f items, (state items).deliver f = state (f :: items))
    (hrun : ∀ f ∈ fs, ∀ items rest,
      (state items).run (f.tokens style ++ rest) = ((state items).deliver f).run rest)
    (items : List Form) (rest : List Token) :
    (state items).run (Form.itemTokens style fs ++ rest) = (state (fs.reverse ++ items)).run rest := by
  induction fs generalizing items with
  | nil => rfl
  | cons f fs ih =>
    obtain ⟨hf, hfs⟩ := List.forall_mem_cons.mp hrun
    rw [Form.itemTokens, List.append_assoc, hf, hstate, ih hfs, List.reverse_cons,
      List.append_assoc, List.singleton_append]

/-- Entries with keys that are not there yet come after those that are. -/
theorem run_entryTokens {es : List Entry} (frames : List Frame) (found : List Form)
    (hrun : ∀ e ∈ es, ∀ entries key rest,
      run ⟨.map entries key :: frames, found⟩ (e.1.tokens style ++ rest) =
          run ⟨(Frame.map entries key).add e.1 :: frames, found⟩ rest ∧
        run ⟨.map entries key :: frames, found⟩ (e.2.tokens style ++ rest) =
          run ⟨(Frame.map entries key).add e.2 :: frames, found⟩ rest)
    (entries : List Entry) (hnew : ∀ e ∈ es, ∀ a ∈ entries, Form.sameKey e.1 a.1 = false)
    (hdistinct : es.Pairwise fun a b => Form.sameKey b.1 a.1 = false) (rest : List Token) :
    run ⟨.map entries none :: frames, found⟩ (Form.entryTokens style es ++ rest) =
      run ⟨.map (entries ++ es) none :: frames, found⟩ rest := by
  induction es generalizing entries with
  | nil => rw [Form.entryTokens, List.append_nil, List.nil_append]
  | cons e es ih =>
    obtain ⟨he, hes⟩ := List.forall_mem_cons.mp hrun
    obtain ⟨hnewe, hnewes⟩ := List.forall_mem_cons.mp hnew
    obtain ⟨hhead, htail⟩ := List.pairwise_cons.mp hdistinct
    have hput : (Frame.map entries (some e.1)).add e.2 = .map (entries ++ [e]) none := by
      rw [Frame.add, Form.putEntry_eq_append hnewe]
    have hnext : ∀ a ∈ es, ∀ b ∈ entries ++ [e], Form.sameKey a.1 b.1 = false := by
      intro a ha b hb
      rcases List.mem_append.mp hb with hb | hb
      · exact hnewes a ha b hb
      · rw [List.mem_singleton.mp hb]
        exact hhead a ha
    rw [Form.entryTokens, List.append_assoc, List.append_assoc, (he entries none _).1, Frame.add,
      (he entries (some e.1) _).2, hput, ih hes (entries ++ [e]) hnext htail, List.append_assoc,
      List.singleton_append]

/-- Between its delimiters a list or an array is put together from its items. -/
theorem run_sequence {items : List Form} (start : Token) (frame : List Form → Frame)
    (form : List Form → Form) (hopened : Frame.opened? start = some (frame []))
    (hadd : ∀ f items, (frame items).add f = frame (f :: items))
    (hclose : ∀ items, (frame items).close = .ok (form items.reverse))
    (hroom : m.frames.length < maxDepth)
    (hrun : ∀ f ∈ items, ∀ n : Machine, n.frames.length = m.frames.length + 1 →
      ∀ rest, n.run (f.tokens style ++ rest) = (n.deliver f).run rest) (rest : List Token) :
    m.run (start :: (Form.itemTokens style items ++ (frame items.reverse).closer :: rest)) =
      (m.deliver (form items)).run rest := by
  have hopen := step_opened hopened hroom
  have hitems := run_itemTokens (fun items => ⟨frame items :: m.frames, m.found⟩)
    (fun f items => by rw [deliver, hadd]) (fun f hf items rest => hrun f hf _ rfl rest) []
    ((frame items.reverse).closer :: rest)
  have hend := step_close m.frames m.found (hclose items.reverse)
  rw [List.append_nil] at hitems
  rw [List.reverse_reverse] at hend
  rw [run_of_step hopen, hitems, run_of_step hend]

/-- The tokens of a form have it delivered, if there is room for it. -/
theorem run_tokens {levels : Nat} (hf : f.Fits levels) (hkeeps : Form.Everywhere style.Keeps f)
    (hlevels : levels + m.frames.length = maxDepth) (rest : List Token) :
    m.run (f.tokens style ++ rest) = (m.deliver f).run rest := by
  induction f generalizing m levels rest with
  | list items ih =>
    cases levels with
    | zero => cases hf.depth
    | succ levels =>
      have hitems := Form.fits_list.mp hf
      have hkeeps := (Form.everywhere_list.mp hkeeps).2
      have hroom : m.frames.length < maxDepth := by omega
      have hrun := run_sequence (m := m) Token.openParen .list .list rfl (fun _ _ => rfl)
        (fun _ => rfl) hroom
        (fun f hf n hn => ih f hf (hitems f hf) (hkeeps f hf) (by omega)) rest
      rw [Form.tokens, List.cons_append, List.append_assoc]
      exact hrun
  | array items ih =>
    cases levels with
    | zero => cases hf.depth
    | succ levels =>
      have hitems := Form.fits_array.mp hf
      have hkeeps := (Form.everywhere_array.mp hkeeps).2
      have hroom : m.frames.length < maxDepth := by omega
      have hrun := run_sequence (m := m) Token.openBracket .array .array rfl (fun _ _ => rfl)
        (fun _ => rfl) hroom
        (fun f hf n hn => ih f hf (hitems f hf) (hkeeps f hf) (by omega)) rest
      rw [Form.tokens, List.cons_append, List.append_assoc]
      exact hrun
  | map entries ihk ihv =>
    cases levels with
    | zero => cases hf.depth
    | succ levels =>
      obtain ⟨hdistinct, hentries⟩ := Form.fits_map.mp hf
      have hkeeps := (Form.everywhere_map.mp hkeeps).2
      have hroom : m.frames.length < maxDepth := by omega
      have hback : entries.Pairwise fun a b => Form.sameKey b.1 a.1 = false := by
        refine hdistinct.imp_of_mem fun {a b} ha hb hab => ?_
        rw [Form.sameKey_symm (hentries b hb).1.wellFormed (hentries a ha).1.wellFormed]
        exact hab
      have hopen : m.step Token.openBrace = .ok { m with frames := .map [] none :: m.frames } :=
        step_opened rfl hroom
      have hrun := run_entryTokens m.frames m.found
        (fun e he es key rest => by
          have hlength : levels + (Frame.map es key :: m.frames).length = maxDepth := by
            rw [List.length_cons]
            omega
          exact ⟨ihk e he (hentries e he).1 (hkeeps e he).1 hlength rest,
            ihv e he (hentries e he).2 (hkeeps e he).2 hlength rest⟩)
        [] (fun _ _ _ ha => by cases ha) hback (Token.closeBrace :: rest)
      have hend := step_close m.frames m.found
        (rfl : (Frame.map entries none).close = .ok (.map entries))
      rw [List.nil_append] at hrun
      rw [Form.tokens, List.cons_append, List.append_assoc, run_of_step hopen]
      exact hrun.trans (run_of_step hend rest)
  | _ =>
    have hlegible := (Form.everywhere_atom rfl).mp hf.legible
    rw [Form.tokens_atom rfl]
    have hkeeps := (Form.everywhere_atom rfl).mp hkeeps
    exact run_of_step (step_denotes (Form.denotes_print rfl hlegible hkeeps)) rest

end Machine

section

variable [Visiting]

theorem readTokens_singleton {t : Token} {f : Form} (h : t.Denotes f) :
    readTokens [t] = .ok [f] :=
  readTokens_eq_ok_iff.mpr (Machine.run_of_step (Machine.step_denotes h) [])

theorem read_whole {t : Token} {f : Form} (hw : Token.Whole t) (h : t.Denotes f) :
    read t = .ok [f] := by
  have htokens : tokenize t = [t] := hw
  rw [read, htokens]
  exact readTokens_singleton h

/-- The texts of readable forms, with spaces between them, are read to those forms in a style that
keeps their strings. -/
theorem read_texts {style : Form.Style} {fs : List Form} (h : ∀ f ∈ fs, f.Fits maxDepth)
    (hkeeps : ∀ f ∈ fs, Form.Everywhere style.Keeps f) :
    read (Form.spaced (Form.texts style fs)) = .ok fs := by
  have hsplits : Splits (Form.spaced (Form.texts style fs)) (Form.itemTokens style fs) :=
    Form.splits_texts fun f hf => Form.splits_print (h f hf).legible (hkeeps f hf)
  have htokens : tokenize (Form.spaced (Form.texts style fs)) = Form.itemTokens style fs := by
    have hscan := hsplits [] Token.stops_nil
    rw [List.append_nil, Token.scan, List.reverse_nil, List.append_nil] at hscan
    exact hscan
  have hrun : Machine.start.run (Form.itemTokens style fs) = .ok ⟨[], fs.reverse⟩ := by
    have hitems := Machine.run_itemTokens (fun items => ⟨[], items⟩) (fun _ _ => rfl)
      (fun f hf items => Machine.run_tokens (m := ⟨[], items⟩) (h f hf) (hkeeps f hf) rfl) [] []
    rw [List.append_nil, List.append_nil] at hitems
    exact hitems
  rw [read, htokens]
  exact readTokens_eq_ok_iff.mpr hrun

theorem read_spaced_print {fs : List Form} (h : ∀ f ∈ fs, f.Fits maxDepth) :
    read (Form.spaced (fs.map (Form.print .readable))) = .ok fs := by
  rw [← Form.texts_eq_map]
  exact read_texts h fun _ _ _ _ => trivial

theorem read_print {f : Form} (hf : f.Fits maxDepth) : read (f.print .readable) = .ok [f] := by
  have hread := read_spaced_print (List.forall_mem_singleton.mpr hf)
  rw [List.map_singleton, Form.spaced, String.intercalate_singleton] at hread
  exact hread

end

/-- Legible forms are equal if they differ in the order of entries only. -/
theorem Form.equal_of_reordered {f g : Form} {levels : Nat} (h : Reordered f g)
    (hf : f.Fits levels) : (g == f) = true := by
  have hsame := same_of_reordered h
  have hg := fits_of_same hsame hf
  change equal g f = true
  rw [equal_eq_sameKey (everywhere_notNaN hg.legible),
    sameKey_iff_same hg.wellFormed hf.wellFormed]
  exact same_symm hsame

/-- What one run has read, printed with the entries of maps in any order, every run reads to forms equal
to it. -/
theorem read_print_of_read [Visiting] {text : String} {fs gs : List Form} (h : read text = .ok fs)
    (hgs : List.Forall₂ Form.Reordered fs gs) :
    (∀ [Visiting], read (Form.spaced (gs.map (Form.print .readable))) = .ok gs) ∧
      List.Forall₂ (fun g f => (g == f) = true) gs fs := by
  have hfits := fits_of_read h
  constructor
  · intro other
    refine read_spaced_print fun g hg => ?_
    obtain ⟨f, hf, hfg⟩ := exists_left_of_mem hgs hg
    exact Form.fits_of_same (Form.same_of_reordered hfg) (hfits f hf)
  · refine List.Forall₂.flip (forall₂_imp_of_mem hgs fun f hf g _ hfg => ?_)
    exact Form.equal_of_reordered hfg (hfits f hf)

/-- A number too large to be one, a zero below zero and a keyword without a name. -/
theorem read_print_of_read_swapped :
    read "\x7b1e400 -0 : \"\"\x7d" =
        .ok [.map [(.symbol "1e400", .number (.ofMagnitude true 0)), (.keyword "", .string "")]] ∧
      read "\x7b: \"\" 1e400 -0\x7d" =
        .ok [.map [(.keyword "", .string ""), (.symbol "1e400", .number (.ofMagnitude true 0))]] := by
  have hlarge : Token.Denotes "1e400" (.symbol "1e400") := by
    have hnone : Number.ofLiteral? "1e400".toList = none := by decide +kernel
    refine ⟨by decide, by decide, ?_⟩
    rw [Form.ofToken, hnone]
    rfl
  have hzero : Token.Denotes "-0" (.number (.ofMagnitude true 0)) := by
    have hsome : Number.ofLiteral? "-0".toList = some (.ofMagnitude true 0) := by decide +kernel
    refine ⟨by decide, by decide, ?_⟩
    rw [Form.ofToken, hsome]
  have hempty : Token.Denotes ":" (.keyword "") :=
    ⟨by decide, by decide, Form.ofToken_keyword rfl⟩
  have hquotes : Token.Denotes "\"\"" (.string "") :=
    ⟨by decide, by decide, Form.ofToken_string rfl⟩
  have htokens : tokenize "\x7b1e400 -0 : \"\"\x7d" =
      ["\x7b", "1e400", "-0", ":", "\"\"", "\x7d"] := by
    decide +kernel
  have hread : read "\x7b1e400 -0 : \"\"\x7d" =
      .ok [.map [(.symbol "1e400", .number (.ofMagnitude true 0)), (.keyword "", .string "")]] := by
    rw [read, htokens]
    refine readTokens_eq_ok_iff.mpr ?_
    rw [Machine.run_of_step (Machine.step_opened rfl (by decide)),
      Machine.run_of_step (Machine.step_denotes hlarge),
      Machine.run_of_step (Machine.step_denotes hzero),
      Machine.run_of_step (Machine.step_denotes hempty),
      Machine.run_of_step (Machine.step_denotes hquotes)]
    rfl
  have hswap : Form.Reordered
      (.map [(.symbol "1e400", .number (.ofMagnitude true 0)), (.keyword "", .string "")])
      (.map [(.keyword "", .string ""), (.symbol "1e400", .number (.ofMagnitude true 0))]) :=
    Form.reordered_map (.swap _ _ _)
  have hprint : Form.spaced ([Form.map [(.keyword "", .string ""),
      (.symbol "1e400", .number (.ofMagnitude true 0))]].map (Form.print .readable)) =
      "\x7b: \"\" 1e400 -0\x7d" := by
    decide +kernel
  have hagain := (read_print_of_read hread (.cons hswap .nil)).1
  rw [hprint] at hagain
  exact ⟨hread, hagain⟩

/-- The text of a form, with the entries of maps in any order, is read to one form equal to it just
if the form is readable. -/
theorem read_print_iff_readable [Visiting] {f g : Form} (hw : f.WellFormed) (h : Form.Reordered f g) :
    (∃ r, read (g.print .readable) = .ok [r] ∧ (r == f) = true) ↔ f.Readable := by
  constructor
  · rintro ⟨r, hread, hequal⟩
    have hr := fits_of_read hread r List.mem_cons_self
    change Form.equal r f = true at hequal
    rw [Form.equal_eq_sameKey (Form.everywhere_notNaN hr.legible),
      Form.sameKey_iff_same hr.wellFormed hw] at hequal
    exact (Form.fits_of_same hequal hr).readable
  · intro hf
    have hfits := hf.fits hw
    have hg := Form.fits_of_same (Form.same_of_reordered h) hfits
    exact ⟨g, read_print hg, Form.equal_of_reordered h hfits⟩

theorem read_print_iff_readable_swapped :
    Form.WellFormed (.map [(.keyword "", .string "\n"), (.list [.nil], .identifier "x")]) ∧
      ((∃ r, read (Form.print .readable
            (.map [(.list [.nil], .identifier "x"), (.keyword "", .string "\n")])) = .ok [r] ∧
          (r == .map [(.keyword "", .string "\n"), (.list [.nil], .identifier "x")]) = true) ↔
        Form.Readable (.map [(.keyword "", .string "\n"), (.list [.nil], .identifier "x")])) := by
  have hw : Form.WellFormed (.map [(.keyword "", .string "\n"), (.list [.nil], .identifier "x")]) := by
    decide
  exact ⟨hw, read_print_iff_readable hw (Form.reordered_map (.swap _ _ _))⟩

end Sexpr
