import Reconciliation.Json.Reader
import Reconciliation.Proofs.Json.Tokens

/-! # Printed values are read back

A value without repeated keys is read back as it is, or in its ordered form if it was printed with
sorted keys. Whatever is read has no repeated keys.
-/
namespace Reconciliation.Json

open Value (keysDistinct)

/-! ## The states of a reader that meets the tokens of a value -/

theorem run_append (s : State) (ts us : List Token) :
    s.run (ts ++ us) = (s.run ts).bind (·.run us) := by
  induction ts generalizing s with
  | nil => rfl
  | cons t ts ih =>
    rw [List.cons_append, State.run, State.run]
    cases s.next t with
    | none => rfl
    | some s' => exact ih s'

/-- The value is read completely wherever a value may stand. -/
def Complete (v : Value) : Prop :=
  ∀ frames, State.run (.value frames) (tokens v) = some (.after frames v)

theorem run_items_opened (frames : List Frame) (v : Value) (ts : List Token) :
    State.run (.items frames) (tokens v ++ ts) =
      State.run (.value (.array [] :: frames)) (tokens v ++ ts) := by
  cases v <;> rfl

theorem run_after_item {xs : List Value} (h : ∀ x ∈ xs, Complete x) (done : List Value)
    (frames : List Frame) (v : Value) :
    State.run (.after (.array done :: frames) v)
        ((xs.map tokens).flatMap (.comma :: ·) ++ [.closeArray]) =
      some (.after frames (.array ((v :: done).reverse ++ xs))) := by
  induction xs generalizing done v with
  | nil =>
    rw [List.append_nil]
    rfl
  | cons x xs ih =>
    have hx := h x (by simp) (.array (v :: done) :: frames)
    rw [List.map_cons, List.flatMap_cons, List.cons_append, List.cons_append, List.append_assoc]
    change State.run (.value (.array (v :: done) :: frames)) (tokens x ++ _) = _
    rw [run_append, hx, Option.bind_some, ih fun y hy => h y (List.mem_cons_of_mem _ hy)]
    simp

def entryToken (e : String × Value) : List Token := .scalar (.string e.1) :: .colon :: tokens e.2

theorem run_after_entry {es : Entries Value} (h : ∀ e ∈ es, Complete e.2) (done : Entries Value)
    (k : String) (frames : List Frame) (v : Value) :
    State.run (.after (.object done k :: frames) v)
        ((es.map entryToken).flatMap (.comma :: ·) ++ [.closeObject]) =
      some (.after frames (.object
        (es.foldl (fun (done : Entries Value) e => done.set e.1 e.2) (done.set k v)))) := by
  induction es generalizing done k v with
  | nil => rfl
  | cons e es ih =>
    have he := h e (by simp) (.object (done.set k v) e.1 :: frames)
    rw [List.map_cons, List.flatMap_cons, List.cons_append, List.cons_append, List.append_assoc]
    change State.run (.value (.object (done.set k v) e.1 :: frames)) (tokens e.2 ++ _) = _
    rw [run_append, he, Option.bind_some, ih fun f hf => h f (List.mem_cons_of_mem _ hf)]
    rfl

theorem complete_array {xs : List Value} (h : ∀ x ∈ xs, Complete x) : Complete (.array xs) := by
  intro frames
  rw [tokens, itemTokens_eq]
  change State.run (.items frames) (separated (xs.map tokens) ++ _) = _
  cases xs with
  | nil => rfl
  | cons x xs =>
    rw [List.map_cons, separated, List.append_assoc, run_items_opened, run_append,
      h x (by simp), Option.bind_some, run_after_item fun y hy => h y (List.mem_cons_of_mem _ hy)]
    rfl

theorem complete_object {es : Entries Value} (hn : es.keys.Nodup)
    (h : ∀ e ∈ es, Complete e.2) : Complete (.object es) := by
  intro frames
  rw [tokens, entryTokens_eq]
  change State.run (.fields frames) (separated (es.map entryToken) ++ _) = _
  cases es with
  | nil => rfl
  | cons e es =>
    have he := h e (by simp) (.object [] e.1 :: frames)
    rw [List.map_cons, separated, List.append_assoc]
    change State.run (.value (.object [] e.1 :: frames)) (tokens e.2 ++ _) = _
    rw [run_append, he, Option.bind_some, run_after_entry fun f hf => h f (List.mem_cons_of_mem _ hf)]
    have hfold := Entries.ofList_of_nodup hn
    rw [Entries.ofList, List.foldl_cons] at hfold
    rw [hfold]

theorem complete_of_keysDistinct {v : Value} (h : v.keysDistinct = true) : Complete v := by
  induction v with
  | array xs ih =>
    rw [Value.keysDistinct_array] at h
    exact complete_array fun x hx => ih x hx (h x hx)
  | object es ih =>
    rw [Value.keysDistinct_object] at h
    exact complete_object h.1 fun e he => ih e he (h.2 e he)
  | _ => exact fun _ => rfl

/-! ## Printing and reading -/

theorem value?_tokens {v : Value} (h : v.keysDistinct = true) : value? (tokens v) = some v := by
  rw [value?, complete_of_keysDistinct h []]

theorem tokens?_text {style : Style} (hs : style.sorted = false) (v : Value) (rest : List Char)
    (hrest : ∀ c ∈ rest, isSpace c = true) :
    tokens? (style.text 0 v ++ rest) = some (tokens v) := by
  have hd : Delimited rest := by
    intro c hc
    rw [isDelimiter, hrest c (List.mem_of_mem_head? hc)]
    rfl
  have hspaces : tokens? rest = some [] := by
    have := tokens?_spaces hrest []
    rwa [List.append_nil, tokens?] at this
  rw [readAs_text hs v 0 rest hd, hspaces, Option.map_some, List.append_nil]

theorem read?_text {style : Style} (hs : style.sorted = false) {v : Value}
    (h : v.keysDistinct = true) (rest : List Char) (hrest : ∀ c ∈ rest, isSpace c = true) :
    read? (String.ofList (style.text 0 v ++ rest)) = some v := by
  rw [read?, String.toList_ofList, tokens?_text hs v rest hrest, Option.bind_some, value?_tokens h]

theorem read?_text_sorted {style : Style} (hs : style.sorted = true) {v : Value}
    (h : v.keysDistinct = true) (rest : List Char) (hrest : ∀ c ∈ rest, isSpace c = true) :
    read? (String.ofList (style.text 0 v ++ rest)) = some v.ordered := by
  rw [text_ordered hs]
  exact read?_text rfl (Value.keysDistinct_ordered h) rest hrest

theorem read?_print {style : Style} (hs : style.sorted = false) {v : Value}
    (h : v.keysDistinct = true) : read? (style.print v) = some v := by
  have hread := read?_text hs h [] nofun
  rwa [List.append_nil] at hread

theorem read?_print_sorted {style : Style} (hs : style.sorted = true) {v : Value}
    (h : v.keysDistinct = true) : read? (style.print v) = some v.ordered := by
  have hread := read?_text_sorted hs h [] nofun
  rwa [List.append_nil] at hread

/-- Values that are printed alike are the same. -/
theorem print_eq_iff {style : Style} (hs : style.sorted = false) {v w : Value}
    (hv : v.keysDistinct = true) (hw : w.keysDistinct = true) :
    style.print v = style.print w ↔ v = w := by
  constructor
  · intro h
    have hread := read?_print hs hv
    rw [h, read?_print hs hw] at hread
    exact (Option.some.inj hread).symm
  · intro h
    rw [h]

/-- Values that are printed alike with sorted keys are the same tree. -/
theorem print_eq_iff_sameTree {style : Style} (hs : style.sorted = true) {v w : Value}
    (hv : v.keysDistinct = true) (hw : w.keysDistinct = true) :
    style.print v = style.print w ↔ Value.SameTree v w := by
  have hprint (u : Value) : style.print u = Style.print ⟨false, style.lines⟩ u.ordered :=
    congrArg String.ofList (text_ordered hs u 0)
  rw [hprint, hprint]
  exact print_eq_iff rfl (Value.keysDistinct_ordered hv) (Value.keysDistinct_ordered hw)

/-! ## Control characters are printed as escapes -/

/-- A text whose only control characters are line feeds. -/
def Plain (text : List Char) : Prop := ∀ c ∈ text, 32 ≤ c.toNat ∨ c = '\n'

theorem plain_append {text rest : List Char} (h : Plain text) (hr : Plain rest) :
    Plain (text ++ rest) := fun c hc => (List.mem_append.mp hc).elim (h c) (hr c)

theorem plain_cons {c : Char} {rest : List Char} (h : 32 ≤ c.toNat ∨ c = '\n') (hr : Plain rest) :
    Plain (c :: rest) := List.forall_mem_cons.mpr ⟨h, hr⟩

theorem plain_escaped (c : Char) : Plain (escaped c) := by
  have hhex : ∀ n < 32, 32 ≤ (hexChar (n / 16)).toNat ∧ 32 ≤ (hexChar (n % 16)).toNat := by decide
  unfold escaped
  split
  case h_8 =>
    split
    · rename_i hc
      intro d hd
      simp only [List.mem_cons, List.not_mem_nil, or_false] at hd
      rcases hd with rfl | rfl | rfl | rfl | rfl | rfl
      · decide
      · decide
      · decide
      · decide
      · exact Or.inl (hhex _ hc).1
      · exact Or.inl (hhex _ hc).2
    · rename_i hc
      exact plain_cons (Or.inl (Nat.le_of_not_lt hc)) (by simp [Plain])
  all_goals simp [Plain]

theorem plain_quoted (s : String) : Plain (quoted s) := by
  refine plain_cons (by decide) (plain_append ?_ (by simp [Plain]))
  intro c hc
  obtain ⟨d, -, hd⟩ := List.mem_flatMap.mp hc
  exact plain_escaped d c hd

theorem plain_atom {text : List Char} {v : Value} (h : IsAtom text v) : Plain text :=
  fun _ hc => Or.inl (h.of_mem hc).2

theorem plain_scalarText {v : Value} (hv : v.shape = .null ∨ v.shape = .scalar) :
    Plain (scalarText v) := by
  by_cases hs : ∃ s, v = .string s
  · obtain ⟨s, rfl⟩ := hs
    exact plain_quoted s
  · exact plain_atom (isAtom_scalarText hv fun s hs' => hs ⟨s, hs'⟩)

theorem composes_plain : Composes Plain where
  nil := by simp [Plain]
  append := plain_append
  mark := by simp [Plain]
  scalar _ := plain_scalarText

theorem plain_text_value (style : Style) (v : Value) (depth : Nat) :
    Plain (style.text depth v) := composes_plain.text style v depth

/-! ## What is read passes what its scalars pass -/

section Passing

variable {test : Value → Bool} (ht : Value.Lifts test)

def Frame.Passes (test : Value → Bool) : Frame → Prop
  | .array done => ∀ v ∈ done, v.everywhere test = true
  | .object done _ => done.keys.Nodup ∧ ∀ e ∈ done, e.2.everywhere test = true

/-- All parts of what was read so far pass a test, and no object has repeated keys. -/
def State.Passes (test : Value → Bool) : State → Prop
  | .value frames | .items frames | .fields frames => ∀ f ∈ frames, f.Passes test
  | .key frames done | .colon frames done _ =>
    (∀ f ∈ frames, f.Passes test) ∧ done.keys.Nodup ∧ ∀ e ∈ done, e.2.everywhere test = true
  | .after frames v => (∀ f ∈ frames, f.Passes test) ∧ v.everywhere test = true

def Token.Passes (test : Value → Bool) : Token → Prop
  | .scalar v => v.everywhere test = true
  | _ => True

theorem passes_set {es : Entries Value} (hn : es.keys.Nodup)
    (h : ∀ e ∈ es, e.2.everywhere test = true) (k : String) {v : Value}
    (hv : v.everywhere test = true) :
    (es.set k v).keys.Nodup ∧ ∀ e ∈ es.set k v, e.2.everywhere test = true := by
  refine ⟨Entries.nodup_set hn k v, fun e he => ?_⟩
  rcases Entries.mem_set he with rfl | he
  · exact hv
  · exact h e he

theorem passes_start {frames : List Frame} (h : ∀ f ∈ frames, f.Passes test) {t : Token}
    (hp : t.Passes test) {s : State} (hs : State.start frames t = some s) : s.Passes test := by
  cases t <;> simp only [State.start, Option.some.injEq, reduceCtorEq] at hs <;> subst hs
  · exact h
  · exact h
  · exact ⟨h, hp⟩

include ht

theorem passes_next {s s' : State} (h : s.Passes test) {t : Token} (hp : t.Passes test)
    (hs : s.next t = some s') : s'.Passes test := by
  have hpush {frames : List Frame} {f : Frame} (hf : ∀ g ∈ frames, g.Passes test)
      (hc : f.Passes test) : ∀ g ∈ f :: frames, g.Passes test := List.forall_mem_cons.mpr ⟨hc, hf⟩
  have hitem {done : List Value} {v : Value} (hd : Frame.Passes test (.array done))
      (hv : v.everywhere test = true) : ∀ x ∈ v :: done, x.everywhere test = true :=
    List.forall_mem_cons.mpr ⟨hv, hd⟩
  unfold State.next at hs
  split at hs
  case h_1 => exact passes_start h hp hs
  case h_2 =>
    obtain rfl := Option.some.inj hs
    exact ⟨h, Value.everywhere_array.mpr ⟨ht.array _, by simp⟩⟩
  case h_3 => exact passes_start (hpush h (by simp [Frame.Passes])) hp hs
  case h_4 =>
    obtain rfl := Option.some.inj hs
    exact ⟨h, Value.everywhere_object.mpr ⟨ht.object _ (by simp), by simp⟩⟩
  case h_5 => obtain rfl := Option.some.inj hs; exact ⟨h, by simp, by simp⟩
  case h_6 => obtain rfl := Option.some.inj hs; exact h
  case h_7 => obtain rfl := Option.some.inj hs; exact hpush h.1 h.2
  case h_8 =>
    obtain rfl := Option.some.inj hs
    obtain ⟨hf, hv⟩ := h
    obtain ⟨hdone, hf⟩ := List.forall_mem_cons.mp hf
    exact hpush hf (hitem hdone hv)
  case h_9 =>
    obtain rfl := Option.some.inj hs
    obtain ⟨hf, hv⟩ := h
    obtain ⟨hdone, hf⟩ := List.forall_mem_cons.mp hf
    refine ⟨hf, Value.everywhere_array.mpr ⟨ht.array _, fun x hx => ?_⟩⟩
    exact hitem hdone hv x (List.mem_reverse.mp hx)
  case h_10 =>
    obtain rfl := Option.some.inj hs
    obtain ⟨hf, hv⟩ := h
    obtain ⟨hdone, hf⟩ := List.forall_mem_cons.mp hf
    exact ⟨hf, passes_set hdone.1 hdone.2 _ hv⟩
  case h_11 =>
    obtain rfl := Option.some.inj hs
    obtain ⟨hf, hv⟩ := h
    obtain ⟨hdone, hf⟩ := List.forall_mem_cons.mp hf
    obtain ⟨hnodup, hset⟩ := passes_set hdone.1 hdone.2 _ hv
    exact ⟨hf, Value.everywhere_object.mpr ⟨ht.object _ hnodup, hset⟩⟩
  case h_12 => cases hs

theorem passes_run {s s' : State} {ts : List Token} (h : s.Passes test)
    (hts : ∀ t ∈ ts, t.Passes test) (hs : s.run ts = some s') : s'.Passes test := by
  induction ts generalizing s with
  | nil => exact Option.some.inj hs ▸ h
  | cons t ts ih =>
    rw [State.run] at hs
    split at hs
    · rename_i s₁ hnext
      exact ih (passes_next ht h (hts t (by simp)) hnext)
        (fun u hu => hts u (List.mem_cons_of_mem _ hu)) hs
    · cases hs

theorem everywhere_of_value? {ts : List Token} (hts : ∀ t ∈ ts, t.Passes test) {v : Value}
    (h : value? ts = some v) : v.everywhere test = true := by
  rw [value?] at h
  split at h
  · rename_i w hrun
    obtain rfl := Option.some.inj h
    exact (passes_run ht (s := .value []) (by simp [State.Passes]) hts hrun).2
  · cases h

end Passing

def Token.Atomic : Token → Prop
  | .scalar v => v.shape = .null ∨ v.shape = .scalar
  | _ => True

theorem atomic_atom? {cs : List Char} {v : Value} (h : atom? cs = some v) :
    v.shape = .null ∨ v.shape = .scalar := by
  rw [atom?] at h
  split at h
  · rename_i w hw
    obtain rfl := Option.some.inj h
    have hmem : (_, w) ∈ words := Entries.mem_of_get? hw
    simp only [words, List.mem_cons, List.not_mem_nil, or_false, Prod.mk.injEq] at hmem
    rcases hmem with ⟨-, rfl⟩ | ⟨-, rfl⟩ | ⟨-, rfl⟩ | ⟨-, rfl⟩ | ⟨-, rfl⟩ | ⟨-, rfl⟩ <;> decide
  · split at h
    · obtain rfl := Option.some.inj h
      rw [number]
      split <;> exact Or.inr rfl
    · cases h

theorem atomic_punctuation? {c : Char} {t : Token} (h : punctuation? c = some t) : t.Atomic := by
  unfold punctuation? at h
  split at h <;> simp only [Option.some.injEq, reduceCtorEq] at h <;> subst h <;> trivial

theorem atomic_tokens? {cs : List Char} {ts : List Token} (h : tokens? cs = some ts) :
    ∀ t ∈ ts, t.Atomic := by
  induction hn : cs.length using Nat.strongRecOn generalizing cs ts with
  | ind n ih =>
    subst hn
    have hcons {rest : List Char} (hlt : rest.length < cs.length) {t : Token} (ht : t.Atomic)
        (hr : (tokens? rest).map (t :: ·) = some ts) : ∀ u ∈ ts, u.Atomic := by
      obtain ⟨us, hus, rfl⟩ := Option.map_eq_some_iff.mp hr
      exact List.forall_mem_cons.mpr ⟨ht, ih _ hlt hus rfl⟩
    rw [tokens?.eq_def] at h
    split at h
    · obtain rfl := Option.some.inj h
      simp
    · rename_i c rest
      split at h
      · exact ih _ (by simp) h rfl
      · split at h
        · rename_i t ht
          exact hcons (by simp) (atomic_punctuation? ht) h
        · split at h
          · split at h
            · rename_i pieces after hread
              exact hcons (t := .scalar (.string _)) (Nat.lt_succ_of_lt (readString_length hread))
                (Or.inr rfl) h
            · cases h
          · split at h
            · rename_i v hv
              exact hcons (t := .scalar v) (Nat.lt_succ_of_le (length_dropWhile_le _ rest))
                (atomic_atom? hv) h
            · cases h

/-- A value that is read passes a test throughout if its scalars do. -/
theorem everywhere_of_tokens? {test : Value → Bool} (ht : Value.Lifts test) {cs : List Char}
    {ts : List Token} (hts : tokens? cs = some ts) (hp : ∀ v, .scalar v ∈ ts → test v = true)
    {v : Value} (h : value? ts = some v) : v.everywhere test = true := by
  refine everywhere_of_value? ht (fun t hmem => ?_) h
  have hatomic := atomic_tokens? hts t hmem
  cases t with
  | scalar w =>
    rw [Token.Passes, Value.everywhere_of_shape hatomic]
    exact hp w hmem
  | _ => trivial

/-! ## Reading under a limit on digits -/

theorem read_eq_ok {text : String} {limit : Option Nat} {v : Value} :
    read text limit = .ok v ↔ ∃ ts, tokens? text.toList = some ts ∧ value? ts = some v ∧
      ∀ t ∈ ts, excess? limit t = none := by
  rw [read]
  cases tokens? text.toList with
  | none => simp
  | some ts =>
    dsimp only
    simp only [Option.some.injEq, exists_eq_left', ← List.findSome?_eq_none_iff]
    cases value? ts with
    | none => simp
    | some w => cases ts.findSome? (excess? limit) <;> simp

theorem keysDistinct_of_read {text : String} {limit : Option Nat} {v : Value}
    (h : read text limit = .ok v) : v.keysDistinct = true := by
  obtain ⟨ts, hts, hv, -⟩ := read_eq_ok.mp h
  refine everywhere_of_tokens? Value.lifts_ownKeysDistinct hts (fun w hw => ?_) hv
  have hatomic := atomic_tokens? hts _ hw
  cases w with
  | object es => simp [Token.Atomic, Value.shape] at hatomic
  | _ => rfl

theorem digitsWithin_of_read {text : String} {limit : Option Nat} {v : Value}
    (h : read text limit = .ok v) : v.digitsWithin limit = true := by
  obtain ⟨ts, hts, hv, hwithin⟩ := read_eq_ok.mp h
  refine everywhere_of_tokens? (Value.lifts_ownDigitsWithin limit) hts (fun w hw => ?_) hv
  cases w with
  | int n => exact Option.isNone_iff_eq_none.mpr (hwithin _ hw)
  | _ => rfl

theorem excess?_tokens {limit : Option Nat} {v : Value} (h : v.digitsWithin limit = true) :
    ∀ t ∈ tokens v, excess? limit t = none := by
  have hseparated {tss : List (List Token)} (hs : ∀ ts ∈ tss, ∀ t ∈ ts, excess? limit t = none) :
      ∀ t ∈ separated tss, excess? limit t = none := by
    cases tss with
    | nil => simp [separated]
    | cons ts tss =>
      intro t ht
      rcases List.mem_append.mp ht with ht | ht
      · exact hs ts (by simp) t ht
      · obtain ⟨us, hus, ht⟩ := List.mem_flatMap.mp ht
        rcases List.mem_cons.mp ht with rfl | ht
        · rfl
        · exact hs us (by simp [hus]) t ht
  have henclosed {opened closed : Token} {ts : List Token} (ho : excess? limit opened = none)
      (hc : excess? limit closed = none) (hts : ∀ t ∈ ts, excess? limit t = none) :
      ∀ t ∈ opened :: ts ++ [closed], excess? limit t = none := by
    simpa using ⟨ho, fun t ht => ht.elim (hts t) fun h => h ▸ hc⟩
  induction v with
  | array xs ih =>
    rw [Value.digitsWithin_array] at h
    rw [tokens, itemTokens_eq]
    refine henclosed rfl rfl (hseparated fun ts hts => ?_)
    obtain ⟨x, hx, rfl⟩ := List.mem_map.mp hts
    exact ih x hx (h x hx)
  | object es ih =>
    rw [Value.digitsWithin_object] at h
    rw [tokens, entryTokens_eq]
    refine henclosed rfl rfl (hseparated fun ts hts => ?_)
    obtain ⟨e, he, rfl⟩ := List.mem_map.mp hts
    refine List.forall_mem_cons.mpr ⟨rfl, List.forall_mem_cons.mpr ⟨rfl, ih e he (h e he)⟩⟩
  | int n => simpa [tokens, excess?] using Option.isNone_iff_eq_none.mp h
  | _ => simp [tokens, excess?]

theorem read_text {style : Style} (hs : style.sorted = false) {limit : Option Nat} {v : Value}
    (h : v.keysDistinct = true) (hd : v.digitsWithin limit = true) (rest : List Char)
    (hrest : ∀ c ∈ rest, isSpace c = true) :
    read (String.ofList (style.text 0 v ++ rest)) limit = .ok v := by
  refine read_eq_ok.mpr ⟨tokens v, ?_, value?_tokens h, excess?_tokens hd⟩
  rw [String.toList_ofList]
  exact tokens?_text hs v rest hrest

/-- A value printed with sorted keys is read back in its ordered form, under a limit that its integers
keep to. -/
theorem read_text_sorted {style : Style} (hs : style.sorted = true) {limit : Option Nat} {v : Value}
    (h : v.keysDistinct = true) (hd : v.digitsWithin limit = true) (rest : List Char)
    (hrest : ∀ c ∈ rest, isSpace c = true) :
    read (String.ofList (style.text 0 v ++ rest)) limit = .ok v.ordered := by
  rw [text_ordered hs]
  exact read_text rfl (Value.keysDistinct_ordered h)
    (Value.everywhere_ordered (Value.lifts_ownDigitsWithin limit) h hd) rest hrest

end Reconciliation.Json
