import CtsEngine.InlineRedis.Correspondence

/-!
# What each change keeps

A write, a deletion and a change of the time to live keep the correspondence between the in-memory
Redis and the reference store under the conditions that lazy expiry makes necessary: a write only on
a key that has not expired, a deletion only where no time to live is left behind.
-/

namespace CtsEngine

open Option List InlineStore Function Nat RedisStore

variable {kinds : String → KeyKind} {kind : KeyKind} {s : InlineStore} {r : RedisStore} {now : ℚ}
  {key : String}

/-! ## One key -/

lemma InlineStore.read_of_fresh (hfresh : s.isExpired now key = false) :
    s.read now kind key = s.data kind key := by
  rw [InlineStore.read, hfresh]
  rfl

namespace Matches

variable {s' : InlineStore} {r' : RedisStore}

lemma of_value {payload : Payload kind} {value : RedisValue kind}
    (htyped : ∀ other, other ≠ kind → s'.data other key = none) (hinst : s'.ttlOf key ≠ some 0)
    (hdata : s'.data kind key = some payload) (href : r' key = some ⟨kind, value, s'.ttlOf key⟩)
    (hstand : Stands kind payload value) : Matches kind s' r' now key := by
  refine ⟨htyped, hinst, fun hexp => ?_, fun hfresh => ?_⟩
  · obtain ⟨expireAt, hexpirAt, -, hpast⟩ := isExpired_iff.mp hexp
    rw [live, href, hexpirAt]
    simp [hpast.not_gt]
  · rw [hdata]
    refine ⟨value, live_eq_some.mpr ⟨href, fun expireAt hexpirAt => ?_⟩, hstand⟩
    exact lt_of_not_isExpired hinst hfresh hexpirAt

lemma of_absent (hdata : ∀ other, s'.data other key = none) (httl : s'.ttlOf key = none)
    (href : r'.live now key = none) : Matches kind s' r' now key := by
  refine ⟨fun other _ => hdata other, ?_, fun _ => href, fun _ => ?_⟩
  · rw [httl]
    exact nofun
  · rw [hdata kind]
    exact ⟨httl, href⟩

lemma of_expired (htyped : ∀ other, other ≠ kind → s'.data other key = none)
    (hinst : s'.ttlOf key ≠ some 0) (hexp : s'.isExpired now key = true)
    (href : r'.live now key = none) : Matches kind s' r' now key :=
  ⟨htyped, hinst, fun _ => href, fun hfresh => by rw [hexp] at hfresh; cases hfresh⟩

variable (h : Matches kind s r now key)

include h

lemma read_rel : Option.Rel (Stands kind) (s.read now kind key) (r.read now kind key) := by
  rw [InlineStore.read, RedisStore.read]
  cases hexp : s.isExpired now key with
  | true =>
    rw [h.expired hexp]
    exact .none
  | false =>
    have hstand := h.fresh hexp
    cases hdata : s.data kind key with
    | none =>
      rw [hdata] at hstand
      rw [hstand.2]
      exact .none
    | some payload =>
      rw [hdata] at hstand
      obtain ⟨value, hent, hval⟩ := hstand
      rw [hent, bind_some, RedisEntry.valueOf_mk]
      exact .some hval

lemma live_kind {entry : RedisEntry} (hent : r.live now key = some entry) :
    s.isExpired now key = false ∧ entry.expiresAt = s.ttlOf key ∧
      ∃ payload value, s.data kind key = some payload ∧
        r.live now key = some ⟨kind, value, s.ttlOf key⟩ ∧ Stands kind payload value := by
  have hfresh : s.isExpired now key = false := by
    by_contra hexp
    rw [h.expired (eq_true_of_ne_false hexp)] at hent
    cases hent
  have hstand := h.fresh hfresh
  cases hdata : s.data kind key with
  | none =>
    rw [hdata] at hstand
    rw [hstand.2] at hent
    cases hent
  | some payload =>
    rw [hdata] at hstand
    obtain ⟨value, hlive, hval⟩ := hstand
    rw [hlive] at hent
    cases hent
    exact ⟨hfresh, rfl, payload, value, rfl, hlive, hval⟩

lemma has_eq (hfresh : s.isExpired now key = false) : s.has key = (r.live now key).isSome := by
  have hstand := h.fresh hfresh
  cases hdata : s.data kind key with
  | none =>
    rw [hdata] at hstand
    rw [hstand.2]
    refine eq_false_of_ne_true fun hhas => ?_
    obtain ⟨other, hoth⟩ := has_iff.mp hhas
    by_cases hkind : other = kind
    · rw [hkind, hdata] at hoth
      cases hoth
    · rw [h.typed other hkind] at hoth
      cases hoth
  | some payload =>
    rw [hdata] at hstand
    obtain ⟨value, hlive, -⟩ := hstand
    rw [hlive]
    exact has_iff.mpr ⟨kind, by rw [hdata]; rfl⟩

lemma bind_expiresAt (hfresh : s.isExpired now key = false) :
    (r.live now key).bind RedisEntry.expiresAt = s.ttlOf key := by
  have hstand := h.fresh hfresh
  unfold StandsFor at hstand
  split at hstand
  · rw [hstand.2, hstand.1]
    rfl
  · obtain ⟨value, hlive, -⟩ := hstand
    rw [hlive]
    rfl

end Matches

/-! ## Changes -/

namespace Mirrors

variable (h : Mirrors kinds s r now) (hkind : kinds key = kind)

include h hkind

lemma matches_key : Matches kind s r now key := hkind ▸ h.keys key

variable {value : RedisValue kind} {payload : Payload kind}

/-- **Writes of a whole value** that keep the time at which the key expires. -/
lemma writeKept {expireAt : Option ℚ} (httl : s.ttlOf key = expireAt)
    (hstand : Stands kind payload value) :
    Mirrors kinds (s.put kind key (some payload)) (r.overwrite kind key value expireAt) now := by
  have hkey := h.matches_key hkind
  refine h.change (fun other setKey hne => s.data_put_of_ne kind other _ hne) (fun _ _ => rfl)
    h.unique (fun other hne => update_of_ne hne ..) ?_
  rw [hkind]
  refine .of_value (fun other hne => ?_) hkey.instant (s.data_put_self key kind _) ?_ hstand
  · rw [data_put_of_ne_kind _ _ _ _ hne]
    exact hkey.typed other hne
  · rw [overwrite, update_self, ttlOf_put, httl]

lemma write (hfresh : s.isExpired now key = false) (hstand : Stands kind payload value) :
    Mirrors kinds (s.put kind key (some payload)) (r.put now kind key value) now := by
  rw [RedisStore.put, (h.matches_key hkind).bind_expiresAt hfresh]
  exact h.writeKept hkind rfl hstand

/-- Writes together with a time at which it expires. -/
lemma writeExpiring {expireAt : ℚ} (hexpirAt : expireAt ≠ 0) (hstand : Stands kind payload value) :
    Mirrors kinds ((s.put kind key (some payload)).ttlSet key expireAt)
      (r.overwrite kind key value (some expireAt)) now := by
  have hkey := h.matches_key hkind
  refine h.change (fun other setKey hne => s.data_put_of_ne kind other _ hne)
    (fun other hne => ttlOf_ttlSet_of_ne _ _ hne) (h.unique.put ..)
    (fun other hne => update_of_ne hne ..) ?_
  rw [hkind]
  refine .of_value (fun other hne => ?_) ?_ (s.data_put_self key kind _) ?_ hstand
  · rw [data_ttlSet, data_put_of_ne_kind _ _ _ _ hne]
    exact hkey.typed other hne
  · rw [ttlOf_ttlSet_self]
    exact fun heq => hexpirAt (some.inj heq)
  · rw [overwrite, update_self, ttlOf_ttlSet_self]

/-- **Deletion of the value** of a key without a time to live, or of one that has expired. -/
lemma clear (httl : s.isExpired now key = true ∨ s.ttlOf key = none) :
    Mirrors kinds (s.put kind key none) (r.remove key) now := by
  have hkey := h.matches_key hkind
  have hgone : (r.remove key).live now key = none := by
    rw [live, remove, update_self]
    rfl
  refine h.change (fun other setKey hne => s.data_put_of_ne kind other _ hne) (fun _ _ => rfl)
    h.unique (fun other hne => update_of_ne hne ..) ?_
  rw [hkind]
  have htyped : ∀ other, other ≠ kind → (s.put kind key none).data other key = none := by
    intro other hne
    rw [data_put_of_ne_kind _ _ _ _ hne]
    exact hkey.typed other hne
  rcases httl with hexp | httl
  · exact .of_expired htyped hkey.instant hexp hgone
  · refine .of_absent (fun other => ?_) httl hgone
    by_cases hsame : other = kind
    · subst hsame
      exact s.data_put_self key other _
    · exact htyped other hsame

lemma writeExpired (hexp : s.isExpired now key = true) (value : Option (Payload kind)) :
    Mirrors kinds (s.put kind key value) r now := by
  have hkey := h.matches_key hkind
  refine h.change (fun other setKey hne => s.data_put_of_ne kind other _ hne) (fun _ _ => rfl)
    h.unique (fun _ _ => rfl) ?_
  rw [hkind]
  refine .of_expired (fun other hne => ?_) hkey.instant hexp (hkey.expired hexp)
  rw [data_put_of_ne_kind _ _ _ _ hne]
  exact hkey.typed other hne

omit hkind

lemma expireKey {entry : RedisEntry} (hent : r.live now key = some entry) {expireAt : ℚ}
    (hexpirAt : expireAt ≠ 0) :
    Mirrors kinds (s.ttlSet key expireAt)
      (r.overwrite entry.kind key entry.value (some expireAt)) now := by
  have hkey := h.keys key
  obtain ⟨-, -, payload, value, hdata, hlive, hstand⟩ := hkey.live_kind hent
  obtain rfl := some.inj (hent.symm.trans hlive)
  refine h.change (fun _ _ _ => rfl) (fun other hne => ttlOf_ttlSet_of_ne _ _ hne)
    (h.unique.put ..) (fun other hne => update_of_ne hne ..) ?_
  refine .of_value hkey.typed ?_ hdata ?_ hstand
  · rw [ttlOf_ttlSet_self]
    exact fun heq => hexpirAt (some.inj heq)
  · rw [overwrite, update_self, ttlOf_ttlSet_self]

lemma persistKey {entry : RedisEntry} (hent : r.live now key = some entry) :
    Mirrors kinds (s.ttlDelete key) (r.overwrite entry.kind key entry.value none) now := by
  have hkey := h.keys key
  obtain ⟨-, -, payload, value, hdata, hlive, hstand⟩ := hkey.live_kind hent
  obtain rfl := some.inj (hent.symm.trans hlive)
  have httl : (s.ttlDelete key).ttlOf key = none := by rw [ttlOf_ttlDelete, if_pos rfl]
  refine h.change (fun _ _ _ => rfl) (fun other hne => ?_) (keysUnique_ttlDelete h.unique key)
    (fun other hne => update_of_ne hne ..) ?_
  · rw [ttlOf_ttlDelete, if_neg hne]
  · refine .of_value hkey.typed ?_ hdata ?_ hstand
    · rw [httl]
      exact nofun
    · rw [overwrite, update_self, httl]

end Mirrors

/-! ## Deletions -/

namespace InlineStore

/-- Deleting the key leaves every set of the secondary indexes as it is. -/
def NotIndexed (s : InlineStore) (key : String) : Prop :=
  ∀ setKey, cleanupSet key setKey (s.data .set setKey) = s.data .set setKey

lemma cleanupSet_none (deleted setKey : String) : cleanupSet deleted setKey none = none := by
  unfold cleanupSet
  split
  · rfl
  · split
    · rfl
    · split <;> rfl

lemma data_deleteKey {s : InlineStore} {key : String} (h : s.NotIndexed key) (kind : KeyKind)
    (other : String) :
    (s.deleteKey key).data kind other = if other = key then none else s.data kind other := by
  have hclean : (s.cleanupSecondaryIndexesForDeletedKey key).data = s.data := by
    exact update_eq_self_iff.mpr (funext fun setKey => h setKey)
  rw [deleteKey, data_ttlDelete, hclean]
  dsimp only
  rw [update_apply]

lemma ttlOf_deleteKey (s : InlineStore) (key other : String) :
    (s.deleteKey key).ttlOf other = if other = key then none else s.ttlOf other :=
  ttlOf_ttlDelete ..

lemma NotIndexed.deleteKey {s : InlineStore} {key deleted : String} (h : s.NotIndexed key)
    (hdelet : s.NotIndexed deleted) : (s.deleteKey deleted).NotIndexed key := by
  intro setKey
  rw [data_deleteKey hdelet]
  split
  · exact cleanupSet_none key setKey
  · exact h setKey

lemma has_deleteKey {s : InlineStore} {key : String} (h : s.NotIndexed key) (other : String) :
    (s.deleteKey key).has other = if other = key then false else s.has other := by
  unfold has
  simp only [data_deleteKey h]
  split
  · rfl
  · rfl

end InlineStore

/-- **Deletion.** A key that is not indexed is gone from both stores. -/
lemma Mirrors.deleteKey (h : Mirrors kinds s r now) (hidxd : s.NotIndexed key) :
    Mirrors kinds (s.deleteKey key) (r.remove key) now := by
  refine h.change (fun other setKey hne => ?_) (fun other hne => ?_) ?_
    (fun other hne => update_of_ne hne ..) (.of_absent (fun other => ?_) ?_ ?_)
  · rw [data_deleteKey hidxd, if_neg hne]
  · rw [ttlOf_deleteKey, if_neg hne]
  · exact keysUnique_ttlDelete h.unique key
  · rw [data_deleteKey hidxd, if_pos rfl]
  · rw [ttlOf_deleteKey, if_pos rfl]
  · rw [live, remove, update_self]
    rfl

/-- **Deletion of an expired key**, which is gone from the reference store already. -/
lemma Mirrors.deleteExpired (h : Mirrors kinds s r now) (hidxd : s.NotIndexed key)
    (hexp : s.isExpired now key = true) : Mirrors kinds (s.deleteKey key) r now := by
  refine h.change (fun other setKey hne => ?_) (fun other hne => ?_) ?_ (fun _ _ => rfl)
    (.of_absent (fun other => ?_) ?_ ((h.keys key).expired hexp))
  · rw [data_deleteKey hidxd, if_neg hne]
  · rw [ttlOf_deleteKey, if_neg hne]
  · exact keysUnique_ttlDelete h.unique key
  · rw [data_deleteKey hidxd, if_pos rfl]
  · rw [ttlOf_deleteKey, if_pos rfl]

/-- Removing a key that is not in the reference store changes nothing that can be seen. -/
lemma Mirrors.remove_of_absent (h : Mirrors kinds s r now)
    (habs : r.live now key = none) : Mirrors kinds s (r.remove key) now := by
  have hgone : (r.remove key).live now key = none := by
    rw [live, remove, update_self]
    rfl
  have hkey := h.keys key
  refine h.change (fun _ _ _ => rfl) (fun _ _ => rfl) h.unique
    (fun other hne => update_of_ne hne ..)
    ⟨hkey.typed, hkey.instant, fun _ => hgone, fun hfresh => ?_⟩
  rw [hgone]
  rw [← habs]
  exact hkey.fresh hfresh

/-- **`del`.** Deleting keys that are not indexed deletes them from both stores; the number is the
same exactly when none of them is there after it has expired. -/
lemma Mirrors.delKeys (keys : List String) (h : Mirrors kinds s r now)
    (hidxd : ∀ key ∈ keys, s.has key = true → s.NotIndexed key) :
    Mirrors kinds (delKeys s keys).1 (delKeys now r keys).1 now ∧
      (delKeys now r keys).2 ≤ (InlineStore.delKeys s keys).2 ∧
      ((InlineStore.delKeys s keys).2 = (delKeys now r keys).2 ↔
        ∀ key ∈ keys, s.has key = true → s.isExpired now key = false) := by
  induction keys generalizing s r with
  | nil => exact ⟨h, le_rfl, iff_of_true rfl nofun⟩
  | cons key keys ih =>
    have hkey := h.keys key
    have hrest : ∀ other ∈ keys, s.has other = true → s.NotIndexed other :=
      fun other hoth => hidxd other (mem_cons_of_mem _ hoth)
    rw [forall_mem_cons, InlineStore.delKeys, RedisStore.delKeys]
    by_cases hhas : s.has key = true
    · have hkey_indexed := hidxd key (mem_cons_self ..) hhas
      obtain ⟨hcorr, hle, hiff⟩ := ih (h.deleteKey hkey_indexed) fun other hoth hthere => by
        rw [has_deleteKey hkey_indexed] at hthere
        split at hthere
        · cases hthere
        · exact (hrest other hoth hthere).deleteKey hkey_indexed
      rw [if_pos hhas]
      refine ⟨hcorr, ?_⟩
      cases hexp : s.isExpired now key with
      | true =>
        rw [hkey.expired hexp]
        refine ⟨hle.trans (le_succ _), iff_of_false (fun heq => ?_) fun hall => ?_⟩
        · exact absurd heq (lt_succ_of_le hle).ne'
        · exact Bool.noConfusion (hall.1 hhas)
      | false =>
        have hlive : (r.live now key).isSome = true := by rw [← hkey.has_eq hexp, hhas]
        dsimp only
        rw [hlive, if_pos rfl]
        refine ⟨succ_le_succ hle, ?_⟩
        rw [succ_inj, hiff, and_iff_right fun _ => rfl]
        refine forall₂_congr fun other _ => ?_
        rw [has_deleteKey hkey_indexed]
        by_cases hsame : other = key
        · rw [if_pos hsame, hsame, hexp]
          exact iff_of_true nofun fun _ => rfl
        · have httl : (s.deleteKey key).ttlOf other = s.ttlOf other := by
            rw [ttlOf_deleteKey, if_neg hsame]
          rw [if_neg hsame, isExpired_congr httl]
    · have hlive : r.live now key = none := by
        cases hexp : s.isExpired now key with
        | true => exact hkey.expired hexp
        | false =>
          have heq := hkey.has_eq hexp
          rw [eq_false_of_ne_true hhas] at heq
          exact not_isSome_iff_eq_none.mp (by rw [← heq]; exact Bool.false_ne_true)
      obtain ⟨hcorr, hle, hiff⟩ := ih (h.remove_of_absent hlive) hrest
      rw [if_neg hhas, hlive]
      exact ⟨hcorr, hle, hiff.trans (and_iff_right fun hthere => absurd hthere hhas).symm⟩

/-- **A sweep.** Deleting expired keys that are not indexed is not seen. -/
lemma Mirrors.sweep (keys : List String) (h : Mirrors kinds s r now) (huniq : keys.Nodup)
    (hexp : ∀ key ∈ keys, s.isExpired now key = true ∧ s.NotIndexed key) :
    Mirrors kinds (keys.foldl InlineStore.deleteKey s) r now := by
  induction keys generalizing s with
  | nil => exact h
  | cons key keys ih =>
    obtain ⟨hfst, hrest⟩ := nodup_cons.mp huniq
    obtain ⟨hkey, hidxd⟩ := hexp key (mem_cons_self ..)
    refine ih (h.deleteExpired hidxd hkey) hrest fun other hoth => ?_
    obtain ⟨hother_expired, hother_indexed⟩ := hexp other (mem_cons_of_mem _ hoth)
    have hne : other ≠ key := fun hsame => hfst (hsame ▸ hoth)
    have httl : (s.deleteKey key).ttlOf other = s.ttlOf other := by
      rw [ttlOf_deleteKey, if_neg hne]
    rw [isExpired_congr httl]
    exact ⟨hother_expired, hother_indexed.deleteKey hidxd⟩

end CtsEngine
