import QFree.Account.ConfirmedOrder
import QFree.Account.NoEmptyLines
import QFree.Account.OrderHistory
import QFree.Account.OrderOnce
import QFree.Account.SingleRestaurant
import QFree.Auth.AccountDeletion
import QFree.Auth.AccountIsolation
import QFree.Auth.EmailChange
import QFree.Auth.Forms
import QFree.Auth.VerifiedAccess
import QFree.Basket.Table
import QFree.Menu.Labels
import QFree.Menu.ProductCell
import QFree.Menu.Taps
import QFree.Menu.Visit
import QFree.Networking.DisplayedDates
import QFree.Networking.OrderAtomicity
import QFree.Networking.OrderOutcome
import QFree.Networking.ReaderContract
import QFree.Restaurants.CachedImages
import QFree.Restaurants.Categories
import QFree.Server.Bills
import QFree.Server.Ordering
import QFree.Server.Shopping
import QFree.Staff.OrderStatus
import QFree.Staff.RestaurantOrders
