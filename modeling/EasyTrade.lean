import EasyTrade.Broker.Reports
import EasyTrade.Frontend.Transactions
import EasyTrade.Broker.Processing
import EasyTrade.Broker.Paging
import EasyTrade.Logic.Terms
import EasyTrade.Cards.Orders
import EasyTrade.Cards.Current
import EasyTrade.Cards.OneCard
import EasyTrade.Cards.Stranded
import EasyTrade.Cards.Crisis
import EasyTrade.Cards.Progress
import EasyTrade.Cards.Deleted
import EasyTrade.Content.Removal
import EasyTrade.Content.Owner
import EasyTrade.Content.OpenTrades
import EasyTrade.Content.Timeline
import EasyTrade.Content.Newest
import EasyTrade.Accounts.Balances
import EasyTrade.Accounts.Login
import EasyTrade.Accounts.Usernames
import EasyTrade.Accounts.RoundTrip
import EasyTrade.Pricing.Messages
import EasyTrade.Offers.Filters
import EasyTrade.Operator.Coherence
import EasyTrade.Operator.Rollback
import EasyTrade.Operator.Honoured
import EasyTrade.Aggregator.Clock
import EasyTrade.Aggregator.DataGenerator
import EasyTrade.Aggregator.Platform
import EasyTrade.Broker.Apart
import EasyTrade.Broker.Fates
import EasyTrade.Broker.Outage
import EasyTrade.Broker.CardValidation
import EasyTrade.Broker.Holdings
import EasyTrade.Broker.Interchange
import EasyTrade.Broker.Isolation
import EasyTrade.Broker.Overlaps
import EasyTrade.Broker.PluginManager
import EasyTrade.Broker.Settlement
import EasyTrade.Content.Candles
import EasyTrade.Content.Spreads
import EasyTrade.Offers.Sampling
import EasyTrade.Pricing.Malformed
import EasyTrade.Text.Literals
import EasyTrade.Text.Separated
import EasyTrade.UserGenerator.Actions
import EasyTrade.UserGenerator.History
import EasyTrade.UserGenerator.Sql
import EasyTrade.Frontend.Presets
import EasyTrade.Broker.Outage
import EasyTrade.Cards.Deleted
