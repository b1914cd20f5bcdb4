/-
  Menu/ProductCell.lean --- `class ProductTableViewCell`.

  `configure(product:amount:)` fills in the labels and starts a load of the product's
  picture; the load ends in a block that writes its picture into the cell, whatever
  the cell was configured for in the meantime.  `configure` leaves the old picture in
  place until then.

  A picture carries the product it was loaded for, and the state the product of the
  last call.  `shows_own_picture_iff` says which runs never show the picture of
  another product.
-/
import QFree.Foundation.Load
import QFree.Foundation.Run
import QFree.Model.Entities

set_option autoImplicit false

namespace QFree

open QFree.Foundation

variable {Data Image : Type}

/-- The picture of a cell: the placeholder `UIImage(named: "meal")`, or one a load has
written. -/
inductive Picture (Image : Type) where
  | meal
  | loaded (product : ProductInfo) (image : Image)
  deriving DecidableEq

/-- A picture is the placeholder or was loaded for the product. -/
def Picture.BelongsTo (picture : Picture Image) (product : Option ProductInfo) : Prop :=
  match picture with
  | .meal => True
  | .loaded other _ => product = some other

instance (product : Option ProductInfo) :
    DecidablePred fun picture : Picture Image => picture.BelongsTo product
  | .meal => .isTrue trivial
  | .loaded other _ => inferInstanceAs (Decidable (product = some other))

/-- What a cell shows of its product. -/
structure ProductTableViewCell (Image : Type) where
  nameLabel : String
  priceLabel : String
  amountLabel : String
  productImage : Picture Image
  deriving DecidableEq

namespace ProductTableViewCell

/-- `init(style:reuseIdentifier:)`. -/
def initial : ProductTableViewCell Image := ⟨"Латте", "199р", "1", .meal⟩

/-- `configure(product:amount:)`; the link of the product has to be a URL. -/
def configure (images : ImageLibrary Data Image) (cell : ProductTableViewCell Image)
    (product : ProductInfo) (amount : Int64) : Option (ProductTableViewCell Image) :=
  let cell := { cell with
    nameLabel := product.name
    priceLabel := intText product.price ++ "₽"
    amountLabel := intText amount }
  if images.isURL product.imageLink then some cell else none

/-- The block of a load for `product`: `UIImage(data: data)!` becomes the picture. -/
def pictureLoaded (images : ImageLibrary Data Image) (cell : ProductTableViewCell Image)
    (product : ProductInfo) (data : Data) : Option (ProductTableViewCell Image) :=
  (images.ofData data).map fun image => { cell with productImage := .loaded product image }

end ProductTableViewCell

/-! ## A reused cell -/

/-- A cell with its loads, and the product of the last `configure`. -/
structure ReusedCell (Data Image : Type) where
  cell : ProductTableViewCell Image
  loads : List (Load ProductInfo Data)
  configured : Option ProductInfo
  deriving DecidableEq

/-- What happens to a cell; `performed` is the block of an answered load. -/
inductive ProductCellEvent (Data : Type) where
  | configure (product : ProductInfo) (amount : Int64)
  | completed (load : Nat) (data : Data)
  | failed (load : Nat)
  | performed (load : Nat)

namespace ReusedCell

/-- A new cell. -/
def initial : ReusedCell Data Image := ⟨.initial, [], none⟩

/-- One event. -/
def handle (images : ImageLibrary Data Image) (state : ReusedCell Data Image) :
    ProductCellEvent Data → Option (ReusedCell Data Image)
  | .configure product amount => do
      let cell ← state.cell.configure images product amount
      return ⟨cell, Load.start state.loads product, some product⟩
  | .completed load data => do
      let (_, loads) ← Load.complete state.loads load data
      return { state with loads := loads }
  | .failed load => do
      let loads ← Load.fail state.loads load
      return { state with loads := loads }
  | .performed load => do
      let (product, data, loads) ← Load.perform state.loads load
      let cell ← state.cell.pictureLoaded images product data
      return { state with cell := cell, loads := loads }

/-- The picture shown is the placeholder or that of the product configured last. -/
def ShowsOwn (state : ReusedCell Data Image) : Prop :=
  state.cell.productImage.BelongsTo state.configured

/-- The cell is configured for a product while it shows no picture of another one, and a
load is performed while its product is the one configured last. -/
def InTime (state : ReusedCell Data Image) : ProductCellEvent Data → Prop
  | .configure product _ => state.cell.productImage.BelongsTo (some product)
  | .performed load => ∀ loaded ∈ Load.perform state.loads load,
      state.configured = some loaded.1
  | .completed _ _ | .failed _ => True

instance (state : ReusedCell Data Image) : DecidablePred state.InTime
  | .configure product _ =>
      inferInstanceAs (Decidable (state.cell.productImage.BelongsTo (some product)))
  | .performed load => inferInstanceAs (Decidable (∀ loaded ∈ Load.perform state.loads load,
      state.configured = some loaded.1))
  | .completed _ _ | .failed _ => .isTrue trivial

variable {images : ImageLibrary Data Image} {state next : ReusedCell Data Image}

/-- An event leaves the cell with a picture of its own exactly when it comes in time. -/
theorem showsOwn_handle_iff {event : ProductCellEvent Data} (h : state.ShowsOwn)
    (hnext : state.handle images event = some next) : next.ShowsOwn ↔ state.InTime event := by
  cases event with
  | configure product amount =>
      obtain ⟨cell, hcell, hconfigured⟩ := Option.bind_eq_some_iff.mp hnext
      obtain ⟨-, hlabels⟩ := Option.ite_none_right_eq_some.mp hcell
      obtain rfl := Option.some.inj hlabels
      obtain rfl := Option.some.inj hconfigured
      exact Iff.rfl
  | completed load data =>
      obtain ⟨answered, -, hloads⟩ := Option.bind_eq_some_iff.mp hnext
      obtain rfl := Option.some.inj hloads
      exact iff_of_true h trivial
  | failed load =>
      obtain ⟨loads, -, hloads⟩ := Option.bind_eq_some_iff.mp hnext
      obtain rfl := Option.some.inj hloads
      exact iff_of_true h trivial
  | performed load =>
      obtain ⟨⟨product, data, loads⟩, hperform, hblock⟩ := Option.bind_eq_some_iff.mp hnext
      obtain ⟨cell, hcell, hshown⟩ := Option.bind_eq_some_iff.mp hblock
      obtain ⟨image, -, rfl⟩ := Option.map_eq_some_iff.mp hcell
      obtain rfl := Option.some.inj hshown
      -- the picture is that of the load, so it has to be a load for the last product
      constructor
      · intro hown loaded hloaded
        obtain rfl := Option.some.inj (hperform.symm.trans hloaded)
        exact hown
      · intro hintime
        exact hintime _ hperform

/-- In every run the cell shows no other product's picture, all along, exactly when
every event of the run comes in time. -/
theorem shows_own_picture_iff {events : List (ProductCellEvent Data)}
    {final : ReusedCell Data Image} (hrun : run (handle images) initial events = some final) :
    (∀ k reached, run (handle images) initial (events.take k) = some reached →
      reached.ShowsOwn) ↔ Along (handle images) InTime initial events :=
  forall_take_iff_along InTime ShowsOwn ShowsOwn
    (fun _ _ _ h hintime hnext => (showsOwn_handle_iff h hnext).mpr hintime)
    (fun _ h => h)
    (fun _ _ _ h hnext hown => (showsOwn_handle_iff h hnext).mp hown)
    trivial hrun

/-- A drink. -/
def cellLatte : ProductInfo := ⟨"Latte", 199, "l.png", [.coffee], "0"⟩

/-- Something to go with it. -/
def cellCake : ProductInfo := ⟨"Cake", 250, "c.png", [.dessert], "0"⟩

/-- The cell is configured twice for the same drink, and the first picture arrives. -/
theorem shows_own_picture_iff_sample :
    ∃ final, run (handle ImageLibrary.texts) initial [.configure cellLatte 1,
        .configure cellLatte 2, .completed 0 "latte", .failed 1, .performed 0] = some final ∧
      final.cell.productImage = .loaded cellLatte "latte" ∧ final.ShowsOwn := by
  have hany : (run (handle ImageLibrary.texts) initial [.configure cellLatte 1,
      .configure cellLatte 2, .completed 0 "latte", .failed 1, .performed 0]).any
      (fun final => decide (final.cell.productImage = .loaded cellLatte "latte")) = true := by
    decide
  obtain ⟨final, hrun, hfinal⟩ := (Option.any_eq_true _ _).mp hany
  exact ⟨final, hrun, of_decide_eq_true hfinal,
    (shows_own_picture_iff hrun).mpr (by decide) 5 final hrun⟩

/-- The cell is reused for the cake, and the picture of the latte arrives last. -/
theorem late_picture_shown :
    ∃ final, run (handle ImageLibrary.texts) initial [.configure cellLatte 1, .configure cellCake 1,
        .completed 1 "cake", .performed 1, .completed 0 "latte", .performed 0] = some final ∧
      final.configured = some cellCake ∧
      final.cell.productImage = .loaded cellLatte "latte" ∧ ¬final.ShowsOwn := by
  have hany : (run (handle ImageLibrary.texts) initial [.configure cellLatte 1,
      .configure cellCake 1, .completed 1 "cake", .performed 1, .completed 0 "latte",
      .performed 0]).any (fun final => decide (final.configured = some cellCake ∧
        final.cell.productImage = .loaded cellLatte "latte" ∧
        cellCake ≠ cellLatte)) = true := by
    decide
  obtain ⟨final, hrun, hfinal⟩ := (Option.any_eq_true _ _).mp hany
  obtain ⟨hconfigured, hpicture, hne⟩ := of_decide_eq_true hfinal
  refine ⟨final, hrun, hconfigured, hpicture, fun hown => ?_⟩
  rw [ShowsOwn, hpicture, hconfigured] at hown
  exact hne (Option.some.inj hown)

end ReusedCell

end QFree
